import ChangeReview.Text.Basic

/-!
# Paths

Slash-separated paths as texts: their directory, base name and extension, their normal form without
`.` and empty components, and how two of them are joined.
-/
namespace ChangeReview.Text

/-- The part behind the last slash. -/
def baseName (p : Text) : Text := ((splitLast '/' p).map (·.2)).getD p

/-- The part up to the last slash, without slashes at its end unless it has nothing else. -/
def directory (p : Text) : Text :=
  match splitLast '/' p with
  | none => []
  | some (front, _) =>
    if front.all (· == '/') then front ++ ['/']
    else (front.reverse.dropWhile (· == '/')).reverse

/-- The path without its extension, and the extension with its point. Points at the front of a base
name open no extension. -/
def splitExtension (p : Text) : Text × Text :=
  let name := baseName p
  match splitLast '.' name with
  | none => (p, [])
  | some (front, ext) =>
    if front.all (· == '.') then (p, [])
    else (p.take (p.length - (ext.length + 1)), '.' :: ext)

/-- The base name without its extension. -/
def stem (p : Text) : Text := (splitExtension (baseName p)).1

/-- The extension with its point; nothing if there is none. -/
def extension (p : Text) : Text := (splitExtension p).2

/-- `q` inside the directory `p`; an absolute `q` stands for itself. -/
def joinPath (p q : Text) : Text :=
  if startsWith q ['/'] then q
  else if p.isEmpty || endsWith p ['/'] then p ++ q
  else p ++ '/' :: q

/-- One component added to a normal path, whose components are given last first. -/
def pushComponent (absolute : Bool) (done : List Text) (c : Text) : List Text :=
  if c.isEmpty || c == "." then done
  else if c != ".." then c :: done
  else match done with
    | [] => if absolute then [] else [c]
    | d :: rest => if d == ".." then c :: done else rest

/-- The number of slashes that a normal path keeps in front: two exactly when there are two. -/
def rootSlashes (p : Text) : Nat :=
  if startsWith p "//" && !startsWith p "///" then 2 else if startsWith p "/" then 1 else 0

/-- The path without empty and `.` components, and without `..` where a component is in front. -/
def normalizePath (p : Text) : Text :=
  let slashes := rootSlashes p
  let parts := ((splitOn '/' p).foldl (pushComponent (slashes != 0)) []).reverse
  let text := List.replicate slashes '/' ++ join "/" parts
  if text.isEmpty then "." else text

/-- The components of a path without empty and `.` ones; `..` stays. -/
def pathComponents (p : Text) : List Text :=
  (splitOn '/' p).filter fun c => !c.isEmpty && c != "."

/-- The path with its components as `pathComponents` has them. -/
def tidyPath (p : Text) : Text :=
  let text := List.replicate (rootSlashes p) '/' ++ join "/" (pathComponents p)
  if text.isEmpty then "." else text

end ChangeReview.Text
