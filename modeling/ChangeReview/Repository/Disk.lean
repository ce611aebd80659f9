import ChangeReview.Text.Basic
import ChangeReview.Text.Encoding
import ChangeReview.Text.Path
import ChangeReview.Value.Number

/-!
# The disk around a working directory

The files and folders that a run can see, as a value: every operation takes a disk and gives the
disk behind it. A place is written from the working directory. The folders around it and the root
of absolute paths are always there; of what else they hold, only what is written through such a path
is known. A file carries the time at which it was last written.
-/
namespace ChangeReview

/-!
## Instants

Points in time in seconds, exactly. A file keeps the time of its last change in whole nanoseconds; who
asks how long ago that was reckons in doubles.
-/

/-- A point in time, or the time between two of them, in seconds. -/
abbrev Instant := Rat

namespace Instant

/-- The whole nanoseconds of an instant, rounded down. -/
def nanoseconds (t : Instant) : Int := (t * 1000000000).floor

/-- The instant that a file keeps. -/
def kept (t : Instant) : Instant := mkRat t.nanoseconds 1000000000

/-- The double that tells the time a file keeps: its seconds and its nanoseconds, each a double. -/
def told (t : Instant) : Instant :=
  let fraction : Rat := (t.nanoseconds % 1000000000 : Int)
  let nano := Binary64.rounded (mkRat 1 1000000000)
  Binary64.rounded ((t.nanoseconds / 1000000000 : Int) + Binary64.rounded (nano * fraction))

/-- The seconds from the time that a file keeps to another one. -/
def since (modified now : Instant) : Instant :=
  Binary64.rounded (Binary64.rounded now - modified.told)

/-- The instant so many seconds after the start of time; the start itself for what is no finite
number. -/
def ofSeconds (v : Value) : Instant :=
  match v.number? with
  | some (.whole n) => n
  | some (.double x) => (Binary64.toRat? x).getD 0
  | none => 0

end Instant

/-! ## Places and operations -/

/-- A file with its bytes and the time of its last change, or a folder. -/
inductive Node where
  | file (content : ByteArray) (modified : Instant)
  | folder

/-- The names on the way from the working directory. The way of a place outside begins with `..`,
or with `/` where it starts at the root. -/
abbrev Place := List Text

namespace Place

/-- The root of absolute paths. -/
def root : Place := ["/"]

/-- The place is the working directory, a folder around it, or the root. -/
def isGiven (p : Place) : Bool := p == root || p.all (· == "..")

/-- The folder around a place; the root has none but itself. -/
def parent (p : Place) : Place :=
  if p == root then p else if p.all (· == "..") then ".." :: p else p.dropLast

/-- The place is the working directory or inside it. -/
def isInside (p : Place) : Bool :=
  match p with
  | [] => true
  | name :: _ => name != ".." && name != "/"

end Place

/-- Everything that is known of the disk; given folders have no entries. -/
structure Disk where
  entries : List (Place × Node) := []

/-- Why a path leads to nothing. -/
inductive PathFault where
  | absent
  /-- A file stands where a folder is needed. -/
  | blocked
  | nameTooLong
  | nullCharacter
  deriving DecidableEq, Repr

/-- The most bytes that a name may have. -/
def maxNameBytes : Nat := 255

/-- The most bytes that a path may have. -/
def maxPathBytes : Nat := 4095

namespace PathFault

/-- The fault of an operating system's failure with a number of its own at a path. -/
def failure (number : Nat) (what path : Text) : Fault :=
  .system ("[Errno " ++ Text.ofNat number ++ "] " ++ what ++ ": " ++
    Text.quoted (Text.tidyPath path))

/-- The fault that an operation on the path raises. -/
def toFault (path : Text) : PathFault → Fault
  | absent => failure 2 "No such file or directory" path
  | blocked => failure 20 "Not a directory" path
  | nameTooLong => failure 36 "File name too long" path
  | nullCharacter => .invalid "embedded null byte"

end PathFault

namespace Disk

/-- What stands at a place. -/
def node? (d : Disk) (p : Place) : Option Node :=
  if p.isGiven then some .folder else d.entries.lookup p

def isFolderAt (d : Disk) (p : Place) : Bool :=
  match d.node? p with
  | some .folder => true
  | _ => false

/-- Follows names from a place; every place but the last has to be a folder. -/
def follow (d : Disk) (here : Place) : List Text → Except PathFault Place
  | [] => .ok here
  | name :: rest =>
    match d.node? here with
    | none => .error .absent
    | some (.file ..) => .error .blocked
    | some .folder =>
      if name == ".." then d.follow here.parent rest
      else if maxNameBytes < (Text.toUtf8 name).size then .error .nameTooLong
      else d.follow (here ++ [name]) rest

/-- Where a path starts and the names along it, if it can be a path at all. -/
def route (path : Text) : Except PathFault (Place × List Text) :=
  if path.contains '\x00' then .error .nullCharacter
  else if maxPathBytes < (Text.toUtf8 (Text.tidyPath path)).size then .error .nameTooLong
  else .ok (if Text.startsWith path "/" then .root else [], Text.pathComponents path)

/-- The place that a path leads to, which may still be empty. -/
def locate (d : Disk) (path : Text) : Except PathFault Place :=
  match route path with
  | .ok (start, names) => d.follow start names
  | .error fault => .error fault

/-- What a path leads to. -/
def find (d : Disk) (path : Text) : Except PathFault (Place × Node) :=
  match d.locate path with
  | .error fault => .error fault
  | .ok p =>
    match d.node? p with
    | some node => .ok (p, node)
    | none => .error .absent

/-- The node that a path leads to, if it leads to one. Only of a path that is too long nothing can
be said. -/
def node (d : Disk) (path : Text) : Except Fault (Option Node) :=
  match d.find path with
  | .ok (_, node) => .ok (some node)
  | .error .nameTooLong => .error (PathFault.nameTooLong.toFault path)
  | .error _ => .ok none

def isFile (d : Disk) (path : Text) : Except Fault Bool :=
  (d.node path).map fun
    | some (.file ..) => true
    | _ => false

def isFolder (d : Disk) (path : Text) : Except Fault Bool :=
  (d.node path).map fun
    | some .folder => true
    | _ => false

/-- The bytes of a file. -/
def readBytes (d : Disk) (path : Text) : Except Fault ByteArray :=
  match d.find path with
  | .ok (_, .file content _) => .ok content
  | .ok (_, .folder) => .error (.isFolder "Is a directory")
  | .error fault => .error (fault.toFault path)

/-- The text of a file in UTF-8 with every line end as a line feed. -/
def readText (d : Disk) (path : Text) : Except Fault Text :=
  match d.readBytes path with
  | .ok content => (Text.ofUtf8 content).map Text.normalizeNewlines
  | .error fault => .error fault

/-- Puts a node at a place, in front of nothing else there. -/
def set (d : Disk) (p : Place) (node : Node) : Disk :=
  ⟨(d.entries.filter fun e => e.1 != p) ++ [(p, node)]⟩

/-- Takes away what stands at a place and below it. -/
def removeBelow (d : Disk) (p : Place) : Disk := ⟨d.entries.filter fun e => !p.isPrefixOf e.1⟩

/-- Makes the folders along the names where they are missing. -/
def makeFolders (d : Disk) (here : Place) : List Text → Except PathFault Disk
  | [] => if d.isFolderAt here then .ok d else .error .blocked
  | name :: rest =>
    match d.node? here with
    | none => .error .absent
    | some (.file ..) => .error .blocked
    | some .folder =>
      if name == ".." then d.makeFolders here.parent rest
      else if maxNameBytes < (Text.toUtf8 name).size then .error .nameTooLong
      else
        let next := here ++ [name]
        (if (d.node? next).isSome then d else d.set next .folder).makeFolders next rest

/-- Makes the folder of a path with all folders on its way. -/
def makeFolder (d : Disk) (path : Text) : Except PathFault Disk :=
  match route path with
  | .ok (start, names) => d.makeFolders start names
  | .error fault => .error fault

/-- Writes a file at a place whose parent is a folder. -/
def writeAt (d : Disk) (p : Place) (content : ByteArray) (now : Instant) : Except PathFault Disk :=
  match d.node? p with
  | some .folder => .error .blocked
  | _ => if d.isFolderAt p.dropLast then .ok (d.set p (.file content now.kept)) else .error .absent

/-- Writes a file; its folder has to be there. -/
def write (d : Disk) (path : Text) (content : ByteArray) (now : Instant) : Except PathFault Disk :=
  match d.locate path with
  | .ok p => d.writeAt p content now
  | .error fault => .error fault

/-- The disk with a file and the folders on its way; as it was where the file cannot be. -/
def place (d : Disk) (path : Text) (content : ByteArray) (now : Instant) : Disk :=
  let d := (d.makeFolder (Text.directory path)).toOption.getD d
  (d.write path content now).toOption.getD d

/-- The names directly inside a folder. -/
def namesIn (d : Disk) (p : Place) : List Text :=
  d.entries.filterMap fun e =>
    match e.1.getLast? with
    | some name => if e.1.dropLast = p then some name else none
    | none => none

/-- The names directly inside the folder that a path leads to. -/
def namesAt (d : Disk) (path : Text) : List Text :=
  match d.locate path with
  | .ok p => d.namesIn p
  | .error _ => []

/-- The paths of all files inside the working directory, in the order of their texts. -/
def filePaths (d : Disk) : List Text :=
  (d.entries.filterMap fun e =>
    match e.2 with
    | .file .. => if e.1.isInside then some (Text.join "/" e.1) else none
    | .folder => none).mergeSort Text.le

end Disk

end ChangeReview
