import ChangeReview.Repository.Disk
import ChangeReview.Value.Reader

/-!
# The files that describe a repository

Text files at the root of a repository, and among them the package manifest with its dependencies.
A file that is absent or cannot be read counts as none at all; a path that is too long is a fault.
-/
namespace ChangeReview.Repository

/-- The text of a file below the repository; nothing if it is absent or no text. -/
def fileText (d : Disk) (repository name : Text) : Except Fault (Option Text) :=
  let path := Text.joinPath repository name
  (d.isFile path).map fun found => if found then (d.readText path).toOption else none

/-- Some of the names is a file below the repository. -/
def hasFile (d : Disk) (repository : Text) (names : List Text) : Except Fault Bool :=
  names.anyM fun name => d.isFile (Text.joinPath repository name)

/-- The file is there, is a text and holds one of the fragments. -/
def fileHolds (d : Disk) (repository name : Text) (fragments : List Text) : Except Fault Bool :=
  (fileText d repository name).map fun
    | some text => fragments.any (Text.occurs · text)
    | none => false

/-- The name of the package manifest. -/
def manifestName : Text := "package.json"

/-- The members of the package manifest; none when it is absent or no JSON object. -/
def manifest (d : Disk) (repository : Text) : Except Fault (List (Text × Value)) := do
  match ← fileText d repository manifestName with
  | none => return []
  | some text =>
    match Value.parse text with
    | .ok (.object members) => return members
    | .ok _ | .error .notJson => return []
    | .error fault => throw fault

/-- The members behind `base`, each in its old place if its key is in `base` already. -/
def merge (base members : List (Text × Value)) : List (Text × Value) :=
  members.foldl (fun ms (key, v) => Value.put key v ms) base

/-- The dependencies of a manifest, those for development merged over the others. -/
def dependencies (manifest : List (Text × Value)) : List (Text × Value) :=
  let sections : List Text := ["dependencies", "devDependencies"]
  sections.foldl (fun deps key =>
    match Value.lookup key manifest with
    | some (.object members) => merge deps members
    | _ => deps) []

/-- The manifest depends on a package of the given name. -/
def dependsOn (dependencies : List (Text × Value)) (package : Text) : Bool :=
  (Value.lookup package dependencies).isSome

end ChangeReview.Repository
