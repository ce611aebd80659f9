import ChangeReview.Change.Diff
import ChangeReview.Proofs.Text.Lines

/-!
# Diffs as git writes them

The changes of some files and the diff that shows them. A change has an opening line, a line or two
that say what happened to the file, further header lines, the two side lines, and its hunks. The
types rule out what git never writes: a path with blanks around it, a line that is two lines.
-/
namespace ChangeReview.Diff

/-- What stands on one line. -/
abbrev Line := { t : Text // t.OneLine }

/-- A path of a repository as it stands on a header line. -/
structure GitPath where
  text : Text
  nonempty : text ≠ []
  relative : text.head? ≠ some '/'
  trimmed : Text.trim text = text
  oneLine : text.OneLine

/-- The first character of a content line. -/
inductive Mark where
  | context
  | addition
  | deletion
  | remark
  deriving DecidableEq, Repr

def Mark.char : Mark → Char
  | context => ' '
  | addition => '+'
  | deletion => '-'
  | remark => '\\'

/-- A line of a hunk, its first line apart. -/
structure ContentLine where
  mark : Mark
  rest : Line

def ContentLine.line (l : ContentLine) : Text := l.mark.char :: l.rest.val

/-- A hunk: what follows `@@` on its first line, and its content. -/
structure Hunk where
  range : Line
  content : List ContentLine

def Hunk.lines (h : Hunk) : List Text := ("@@" ++ h.range.val) :: h.content.map ContentLine.line

/-- The header lines that say nothing about the path and nothing about the file's existence. -/
inductive HeaderLabel where
  | oldMode
  | newMode
  | similarity
  | dissimilarity
  | index
  deriving DecidableEq, Repr

def HeaderLabel.text : HeaderLabel → Text
  | oldMode => "old mode "
  | newMode => "new mode "
  | similarity => "similarity index "
  | dissimilarity => "dissimilarity index "
  | index => "index "

structure HeaderLine where
  label : HeaderLabel
  rest : Line

def HeaderLine.line (l : HeaderLine) : Text := l.label.text ++ l.rest.val

/-- What happens to a file, with the mode it gets or had, or with its new path. -/
inductive Action where
  | add (mode : Line)
  | delete (mode : Line)
  | modify
  | rename (new : GitPath)

namespace Action

/-- The header lines that name the action. -/
def lines (old : GitPath) : Action → List Text
  | add mode => ["new file mode " ++ mode.val]
  | delete mode => ["deleted file mode " ++ mode.val]
  | modify => []
  | rename new => ["rename from " ++ old.text, "rename to " ++ new.text]

def status : Action → FileStatus
  | add _ => .added
  | delete _ => .deleted
  | modify => .modified
  | rename _ => .renamed

end Action

/-- The change of one file. Git leaves out the side lines where no content changes. -/
structure FileChange where
  old : GitPath
  action : Action
  before : List HeaderLine
  after : List HeaderLine
  sided : Bool
  hunks : List Hunk
  oneCut : Text.occurs " b/" old.text = false

namespace FileChange

def new (c : FileChange) : GitPath :=
  match c.action with
  | .rename new => new
  | _ => c.old

def header (c : FileChange) : Text := "diff --git a/" ++ c.old.text ++ " b/" ++ c.new.text

/-- A path on a side line, with a tab behind a path that holds a space. -/
def sidePath (prefixed : Text) : Text :=
  if prefixed.contains ' ' then prefixed ++ ['\t'] else prefixed

def oldSide (c : FileChange) : Text :=
  match c.action with
  | .add _ => nullPath
  | _ => sidePath ("a/" ++ c.old.text)

def newSide (c : FileChange) : Text :=
  match c.action with
  | .delete _ => nullPath
  | _ => sidePath ("b/" ++ c.new.text)

def sideLines (c : FileChange) : List Text :=
  if c.sided then ["--- " ++ c.oldSide, "+++ " ++ c.newSide] else []

/-- The lines between the opening line and the first hunk. -/
def metadata (c : FileChange) : List Text :=
  c.before.map HeaderLine.line ++ c.action.lines c.old ++ c.after.map HeaderLine.line ++ c.sideLines

/-- The lines behind the opening line. -/
def body (c : FileChange) : List Text := c.metadata ++ c.hunks.flatMap Hunk.lines

def lines (c : FileChange) : List Text := c.header :: c.body

/-- The lines of content of all hunks. -/
def content (c : FileChange) : List Text :=
  c.hunks.flatMap fun h => h.content.map ContentLine.line

end FileChange

/-- The diff that shows some changes. -/
def render (changes : List FileChange) : Text := Text.join "\n" (changes.flatMap FileChange.lines)

example :
    let name : GitPath := ⟨"my notes.md", by decide, by decide, by decide, by decide⟩
    let hunk : Hunk := ⟨⟨" -1 +1 @@", by decide⟩,
      [⟨.deletion, ⟨"-- old", by decide⟩⟩, ⟨.addition, ⟨"new", by decide⟩⟩]⟩
    render [⟨name, .modify, [], [⟨.index, ⟨"1a..2b", by decide⟩⟩], true, [hunk], by decide⟩] =
      ("diff --git a/my notes.md b/my notes.md\nindex 1a..2b\n--- a/my notes.md\t\n" ++
        "+++ b/my notes.md\t\n@@ -1 +1 @@\n--- old\n+new" : String).toList := by
  decide

/-- The line counts as added: it starts with `+` and looks unlike a side line. -/
def isAddition (line : Text) : Bool := Text.startsWith line "+" && !Text.startsWith line "+++"

/-- The line counts as removed: it starts with `-` and looks unlike a side line. -/
def isDeletion (line : Text) : Bool := Text.startsWith line "-" && !Text.startsWith line "---"

namespace FileChange

/-- The path that a change is listed under. -/
def path (c : FileChange) : Text :=
  match c.action with
  | .delete _ => c.old.text
  | _ => c.new.text

/-- The file that a reader of the diff should be told of. -/
def toChangedFile (c : FileChange) : ChangedFile where
  path := c.path
  status := c.action.status
  additions := c.content.countP isAddition
  deletions := c.content.countP isDeletion
  language := detectLanguage c.path
  diff := Text.join "\n" c.lines
  oldPath := if c.action.status = .renamed then some c.old.text else none

end FileChange

end ChangeReview.Diff
