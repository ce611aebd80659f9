import ChangeReview.Change.File
import ChangeReview.Text.Basic

/-!
# Unified diffs

A diff is a sequence of blocks, each opened by a `diff --git` line. The lines of a block before its
first hunk may say what happened to the file; from the first hunk on lines are content only. Lines
in front of the first block, and blocks whose opening line names no two sides, are passed over.
-/
namespace ChangeReview.Diff

/-- The side of a file that does not exist. -/
def nullPath : Text := "/dev/null"

/-- How an opening line starts. -/
def opening : Text := "diff --git"

/-- The line opens a block. -/
def isOpening (line : Text) : Bool := Text.startsWith line opening

/-- The text can be the new side of an opening line: `b/` and a path, or nothing there. -/
def isNewSide (t : Text) : Bool :=
  t == nullPath || (Text.startsWith t "b/" && 2 < t.length)

/-- Cuts an old path, of which `seen` (last character first) is read already, from the new side: at
the first space behind at least one character that leaves a new side. -/
def cutSides (seen : Text) : Text → Option (Text × Text)
  | [] => none
  | c :: r =>
    if c == ' ' && !seen.isEmpty && isNewSide r then some (seen.reverse, r)
    else cutSides (c :: seen) r

/-- The old and the new path of an opening line, each the null path where there is no file. -/
def sides? (line : Text) : Option (Text × Text) := do
  let rest ← Text.dropPrefix? "diff --git " line
  let (old, new) ← match Text.dropPrefix? "a/" rest with
    | some path => cutSides [] path
    | none => do
      let new ← Text.dropPrefix? "/dev/null " rest
      if isNewSide new then some (nullPath, new) else none
  some (old, if new == nullPath then new else Text.dropPrefix "b/" new)

/-- What the lines of a block have said so far. -/
structure BlockState where
  oldMissing : Bool
  newMissing : Bool
  renamedFrom : Option Text := none
  inHunk : Bool := false
  additions : Nat := 0
  deletions : Nat := 0
  deriving DecidableEq, Repr

namespace BlockState

/-- Counts a content line. Lines that look like file headers are never content. -/
def count (s : BlockState) (line : Text) : BlockState :=
  if Text.startsWith line "+++" || Text.startsWith line "---" then s
  else if Text.startsWith line "+" then { s with additions := s.additions + 1 }
  else if Text.startsWith line "-" then { s with deletions := s.deletions + 1 }
  else s

/-- The side behind a `--- ` or `+++ ` marker is the null path. -/
def namesNothing (line : Text) : Bool := Text.trim (line.drop 4) == nullPath

/-- Takes in one line of the block behind its opening line. -/
def step (s : BlockState) (line : Text) : BlockState :=
  if s.inHunk then s.count line
  else if Text.startsWith line "new file" then { s with oldMissing := true }
  else if Text.startsWith line "deleted file" then { s with newMissing := true }
  else if Text.startsWith line "rename from" then
    { s with renamedFrom := some (Text.trim (Text.dropPrefix "rename from" line)) }
  else if Text.startsWith line "--- " then { s with oldMissing := s.oldMissing || namesNothing line }
  else if Text.startsWith line "+++ " then { s with newMissing := s.newMissing || namesNothing line }
  else if Text.startsWith line "@@" then { s with inHunk := true }
  else s.count line

end BlockState

/-- A block with its opening line's sides. -/
structure Block where
  oldPath : Text
  newPath : Text
  header : Text
  body : List Text
  deriving DecidableEq, Repr

namespace Block

/-- What all lines of the block say. -/
def state (b : Block) : BlockState :=
  b.body.foldl BlockState.step ⟨b.oldPath == nullPath, b.newPath == nullPath, none, false, 0, 0⟩

/-- The status by what is missing, then by a rename line. -/
def statusOf (s : BlockState) : FileStatus :=
  if s.oldMissing then .added
  else if s.newMissing then .deleted
  else if s.renamedFrom.isSome then .renamed
  else .modified

/-- The file of a block. -/
def toFile (b : Block) : ChangedFile :=
  let s := b.state
  let path := if s.newMissing then b.oldPath else b.newPath
  let status := statusOf s
  { path, status
    additions := s.additions
    deletions := s.deletions
    language := detectLanguage path
    diff := Text.join "\n" (b.header :: b.body)
    oldPath :=
      if status = .renamed then s.renamedFrom
      else if b.oldPath != path && !s.oldMissing then some b.oldPath
      else none }

end Block

/-- The lines in front of the first opening line, and each opening line with those behind it. -/
def groups : List Text → List Text × List (Text × List Text)
  | [] => ([], [])
  | l :: r =>
    let (front, rest) := groups r
    if isOpening l then ([], (l, front) :: rest) else (l :: front, rest)

/-- The block that an opening line and its lines make, if the line names two sides. -/
def block? (group : Text × List Text) : Option Block :=
  (sides? group.1).map fun s => ⟨s.1, s.2, group.1, group.2⟩

/-- The blocks of a diff in order. -/
def blocks (diff : Text) : List Block := (groups (Text.lines diff)).2.filterMap block?

/-- The files of a diff in order. -/
def parse (diff : Text) : List ChangedFile := (blocks diff).map Block.toFile

/-- The contents of the added lines of a block. -/
def addedLines (diff : Text) : List Text :=
  ((Text.lines diff).filter fun l =>
    Text.startsWith l "+" && !Text.startsWith l "+++").map (·.drop 1)

end ChangeReview.Diff
