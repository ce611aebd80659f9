import ChangeReview.Digest.Sha256
import ChangeReview.Repository.Disk
import ChangeReview.Value.Number
import ChangeReview.Value.Reader
import ChangeReview.Value.Writer

/-!
# The cache

Results of earlier reviews, kept as JSON files below the repository under keys made from the inputs
of the review. An entry lives for a time that the reader names; an older one is removed when it is
asked for. The cache only advises: what cannot be read is a miss and what cannot be written is left
out. Two faults remain: a name with a null character, and an entry whose bytes are no text.
-/
namespace ChangeReview

/-- The cache of a repository. -/
structure Cache where
  folder : Text
  deriving DecidableEq, Repr

namespace Cache

/-- Where the cache of a repository is. -/
def folderName : Text := ".pr-agent/cache"

def ofRepository (repository : Text) : Cache := ⟨Text.joinPath repository folderName⟩

/-- The seconds for which an entry lives unless its reader says otherwise. -/
def defaultLife : Value := .int (24 * 60 * 60)

/-- An age in seconds is above a life, which has to be a number. -/
def isOlder (age : Instant) (life : Value) : Except Fault Bool :=
  match life.number? with
  | some (.whole n) => .ok (n < age)
  | some (.double x) => .ok (Binary64.isBelow x age)
  | none => .error (.mismatch (.notOrdered life.kind "float"))

/-- The key for the inputs of a review: the same for inputs that differ only in the order of their
members. -/
def key (inputs : Value) : Text := Sha256.ofAscii (Value.writeLine inputs.sorted)

/-- The path of the entry under a key. -/
def entryPath (c : Cache) (key : Text) : Text := Text.joinPath c.folder (key ++ ".json")

/-- The disk behind an attempt at a path, which may leave it as it was. -/
def attempt (d : Disk) (path : Text) (r : Except PathFault Disk) : Disk × Except Fault Unit :=
  match r with
  | .ok d => (d, .ok ())
  | .error .nullCharacter => (d, .error (PathFault.nullCharacter.toFault path))
  | .error _ => (d, .ok ())

/-- Puts a text under a key. What has no text as JSON is left out, but the folder is made. -/
def put (c : Cache) (d : Disk) (now : Instant) (key : Text) (content : Option Text) :
    Disk × Except Fault Unit :=
  match d.makeFolder c.folder, content with
  | .error fault, _ => attempt d c.folder (.error fault)
  | .ok d, none => (d, .ok ())
  | .ok d, some t =>
    let path := c.entryPath key
    attempt d path (d.write path (Text.toUtf8 t) now)

/-- Puts a value under a key. -/
def set (c : Cache) (d : Disk) (now : Instant) (key : Text) (v : Value) : Disk × Except Fault Unit :=
  c.put d now key (some (Value.write (.spaces 2) v))

/-- The value of an entry that is not `null`. -/
def stored (v : Value) : Option Value := if v.isNull then none else some v

/-- The value of an entry's bytes. -/
def decode (content : ByteArray) : Except Fault (Option Value) := do
  let text := Text.normalizeNewlines (← Text.ofUtf8 content)
  match Value.parse text with
  | .ok v => return stored v
  | .error .notJson => return none
  | .error fault => throw fault

/-- The value under a key, if its entry is not older than `life` seconds. An older entry is
removed. -/
def get (c : Cache) (d : Disk) (now : Instant) (key : Text) (life : Value) :
    Disk × Except Fault (Option Value) :=
  match d.find (c.entryPath key) with
  | .error .nullCharacter => (d, .error (PathFault.nullCharacter.toFault (c.entryPath key)))
  | .error _ => (d, .ok none)
  | .ok (_, .folder) => (d, (isOlder 0 life).map fun _ => none)
  | .ok (place, .file content modified) =>
    match isOlder (modified.since now) life with
    | .ok true => (d.removeBelow place, .ok none)
    | .ok false => (d, decode content)
    | .error fault => (d, .error fault)

/-- Removes all entries. -/
def clear (c : Cache) (d : Disk) : Disk × Except Fault Unit :=
  match d.find c.folder with
  | .ok (_, .file ..) => (d, .ok ())
  | .ok (place, .folder) =>
    let d := d.removeBelow place
    attempt d c.folder (d.makeFolder c.folder)
  | .error _ => attempt d c.folder (d.makeFolder c.folder)

end Cache

end ChangeReview
