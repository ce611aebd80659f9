import ChangeReview.Markup.Reference

/-!
# Document types

What the front of a document declares: entities, and attributes that elements have or that consist
of words. The values of attributes are read by these declarations.

The first declaration of a name counts. A document type may refer to declarations that are not read;
from then on an unknown entity in the value of an attribute may be one of those, unless the document
says that it stands alone.
-/
namespace ChangeReview.Markup

/-- What the name of an entity stands for. -/
inductive Entity where
  | text (t : Text)
  /-- Something that lies outside the document. -/
  | outside
  deriving DecidableEq, Repr

/-- What is declared of an attribute of the elements with a name; names are as they are written. -/
structure AttributeRule where
  element : Text
  name : Text
  /-- The value consists of words: spaces separate them and do nothing else. -/
  hasWords : Bool
  /-- The value where the attribute is not written. -/
  value : Option Text
  deriving DecidableEq, Repr

/-- The declarations of a document. -/
structure Doctype where
  /-- The document says that it stands alone. -/
  standsAlone : Bool := false
  /-- There are declarations that are not read. -/
  hasUnread : Bool := false
  /-- Declarations no longer count, since some that are not read precede them. -/
  isClosed : Bool := false
  entities : List (Text × Entity) := []
  rules : List AttributeRule := []
  /-- The number of bytes that the texts of entities may still add to the document. -/
  allowance : Nat
  deriving DecidableEq, Repr

/-- The number of bytes of a text. -/
def byteSize (t : Text) : Nat := t.foldl (fun n c => n + c.utf8Size) 0

/-- Entities may make eight mebibytes of a document, or a hundred times its size. -/
def allowanceOf (size : Nat) : Nat := max (8 * 1024 * 1024 - 1 - size) (99 * size)

/-- The entities that every document has. -/
def predefined : List (Text × Char) :=
  [("amp", '&'), ("lt", '<'), ("gt", '>'), ("quot", '"'), ("apos", '\'')]

namespace Doctype

/-! ## Values of attributes -/

/-- An entity that is not declared does not exist. -/
def isComplete (d : Doctype) : Bool := d.standsAlone || !d.hasUnread

/-- The value that `t` writes behind the characters in `found`, the last of which comes first, and
what is left of `allowance`: white space becomes spaces, and references are replaced, those inside
entities to the given depth. -/
def valueFrom (d : Doctype) : (depth : Nat) → (found t : Text) → (allowance : Nat) →
    Option (Text × Nat)
  | 0, _, _, _ => none
  | depth + 1, found, t, allowance => do
    let ps ← pieces? t
    ps.foldlM (fun (found, allowance) p =>
      match p with
      | .char c => if c == '<' then none else some ((if isSpace c then ' ' else c) :: found, allowance)
      | .literal c => some (c :: found, allowance)
      | .entity name =>
        match predefined.lookup name, d.entities.lookup name with
        | some c, _ => some (c :: found, allowance)
        | none, some (.text t) =>
          if byteSize t ≤ allowance then d.valueFrom depth found t (allowance - byteSize t) else none
        | none, some .outside => none
        | none, none => if d.isComplete then none else some (found, allowance))
      (found, allowance)

/-- The words of a text with one space between neighbours. -/
def words (t : Text) : Text := Text.join " " ((Text.splitOn ' ' t).filter (!·.isEmpty))

/-- The value that is written as `t`, and what is left of `allowance`. An entity that contains
itself has none. -/
def value? (d : Doctype) (hasWords : Bool) (t : Text) (allowance : Nat) : Option (Text × Nat) := do
  let (found, allowance) ← d.valueFrom (d.entities.length + 1) [] t allowance
  some (if hasWords then words found.reverse else found.reverse, allowance)

/-- What is declared of an attribute. -/
def rule? (d : Doctype) (element name : Text) : Option AttributeRule :=
  d.rules.find? fun r => r.element == element && r.name == name

/-- The attributes that elements of a name have without writing them. -/
def defaults (d : Doctype) (element : Text) : List (Text × Text) :=
  (d.rules.filter (·.element == element)).filterMap fun r => r.value.map (r.name, ·)

/-! ## Declarations -/

/-- The declarations with one that is not read. -/
def skip (d : Doctype) : Doctype :=
  { d with hasUnread := true, isClosed := d.isClosed || !d.standsAlone }

/-- A piece as the text of an entity keeps it: references to characters are replaced, those to
entities are not. -/
def keep : Piece → Text
  | .char c | .literal c => [c]
  | .entity name => '&' :: name ++ [';']

/-- The text of an entity that is written as `literal`. -/
def entityText? (literal : Text) : Option Text := do
  let ps ← pieces? literal
  if literal.contains '%' then none
  else some (ps.flatMap keep)

/-- The declarations with one of an entity. -/
def declare (d : Doctype) (name : Text) (e : Entity) : Doctype :=
  if d.isClosed || (predefined.lookup name).isSome || (d.entities.lookup name).isSome then d
  else { d with entities := d.entities ++ [(name, e)] }

/-- The declarations with one of an entity that is written as `literal`. -/
def declareText? (d : Doctype) (name literal : Text) : Option Doctype :=
  if d.isClosed then some d
  else (entityText? literal).map fun t => d.declare name (.text t)

/-- The declarations behind one of an entity for declarations, which no document here can use. -/
def checkText? (d : Doctype) (literal : Text) : Option Doctype :=
  if d.isClosed then some d else (entityText? literal).map fun _ => d

/-- The declarations with one of an attribute, the value of which is written as `literal`. -/
def declareAttribute? (d : Doctype) (element name : Text) (hasWords : Bool)
    (literal : Option Text) : Option Doctype :=
  if d.isClosed then some d
  else do
    let (value, allowance) ← match literal with
      | some t => (d.value? hasWords t d.allowance).map fun (v, left) => (some v, left)
      | none => some (none, d.allowance)
    if (d.rule? element name).isSome then some { d with allowance }
    else some { d with rules := d.rules ++ [⟨element, name, hasWords, value⟩], allowance }

end Doctype

end ChangeReview.Markup
