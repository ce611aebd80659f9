import ChangeReview.Markup.Prolog

/-!
# Elements and their content

Tags, the spaces of their names, and the content between them. Every element is checked: its tags
match, its attributes differ, its prefixes are bound, and its references lead to entities. The text
of an entity is content of its own: what it opens it closes.
-/
namespace ChangeReview.Markup

/-! ## Spaces of names -/

/-- The prefixes that are bound, with the names of their spaces, the innermost first. -/
abbrev Bindings := List (Text × Text)

/-- The prefix that is bound in every document, always to the same space. -/
def xmlPrefix : Text := "xml"

/-- The prefix of the attributes that bind prefixes, and their name when they bind none. -/
def bindingPrefix : Text := "xmlns"

/-- The front of the names of the two spaces that are fixed for all documents. -/
def spaceRoot : Text := ("http:" ++ "//www.w3.org/").toList

/-- The space of the prefix `xml`. -/
def xmlSpace : Text := spaceRoot ++ "XML/1998/namespace".toList

/-- The space of the attributes that bind prefixes, which nothing can be bound to. -/
def bindingSpace : Text := spaceRoot ++ "2000/xmlns/".toList

def initialBindings : Bindings := [(xmlPrefix, xmlSpace)]

/-- An attribute with its value, all references replaced. -/
structure Attribute where
  name : QualifiedName
  value : Text
  deriving DecidableEq, Repr

/-- The attribute binds a prefix, or the space of the names without one. -/
def binds (a : Attribute) : Bool :=
  a.name.space == some bindingPrefix || a.name == ⟨none, bindingPrefix⟩

/-- The bindings with the one that an attribute makes, if it makes one. A closing brace cannot
occur in the name of a space, and the names of the fixed spaces are reserved. -/
def bind? (bindings : Bindings) (a : Attribute) : Option Bindings :=
  if !binds a then some bindings
  else if a.value.contains '\x7d' || a.value == bindingSpace then none
  else if a.name.space.isNone then if a.value == xmlSpace then none else some bindings
  else if a.value.isEmpty || a.name.own == bindingPrefix then none
  else if (a.name.own == xmlPrefix) != (a.value == xmlSpace) then none
  else some ((a.name.own, a.value) :: bindings)

/-- A name with its prefix replaced by the space that it is bound to. -/
def expand? (bindings : Bindings) (name : QualifiedName) : Option QualifiedName :=
  match name.space with
  | none => some name
  | some p => (bindings.lookup p).map fun space => ⟨some space, name.own⟩

/-- No two of the items are equal. -/
def allDistinct {α : Type} [BEq α] : List α → Bool
  | [] => true
  | a :: r => !r.contains a && allDistinct r

/-! ## Tags -/

/-- One attribute behind a space as it is written, and what follows. -/
def takeAttribute? (t : Text) : Option ((QualifiedName × Text) × Text) := do
  let (name, rest) ← takeQualified? (← skipSomeSpace? t)
  let rest ← Text.dropPrefix? "=" (skipSpace rest)
  let (literal, rest) ← takeQuoted? (skipSpace rest)
  some ((name, literal), rest)

/-- How a start tag ends. -/
inductive TagEnd where
  | opens
  | closes
  deriving DecidableEq, Repr

/-- The attributes of a start tag behind those in `found`, the last of which comes first; how the
tag ends; and what follows. -/
def takeAttributes? : (fuel : Nat) → (found : List (QualifiedName × Text)) → Text →
    Option (List (QualifiedName × Text) × TagEnd × Text)
  | 0, _, _ => none
  | fuel + 1, found, t =>
    match skipSpace t with
    | '>' :: rest => some (found.reverse, .opens, rest)
    | '/' :: '>' :: rest => some (found.reverse, .closes, rest)
    | _ =>
      match takeAttribute? t with
      | some (a, rest) => takeAttributes? fuel (a :: found) rest
      | none => none

/-- The attributes of an element with their values, and what is left of `allowance`: those that are
written, and those that are declared with a value and not written. -/
def attributes? (d : Doctype) (element : Text) (written : List (QualifiedName × Text))
    (allowance : Nat) : Option (List Attribute × Nat) := do
  let (found, allowance) ← written.foldlM (fun (found, allowance) (name, literal) => do
    let hasWords := ((d.rule? element name.toText).map (·.hasWords)).getD false
    let (value, allowance) ← d.value? hasWords literal allowance
    some (⟨name, value⟩ :: found, allowance)) (([] : List Attribute), allowance)
  let others := (d.defaults element).filter fun (name, _) =>
    !written.any fun (n, _) => n.toText == name
  some (found.reverse ++ others.map fun (name, value) => ⟨.ofText name, value⟩, allowance)

/-- An element whose start tag has been read, under its name as it is written. -/
structure OpenElement where
  name : Text
  bindings : Bindings

/-- A start tag. -/
structure Tag where
  element : OpenElement
  /-- The attributes other than those that bind prefixes, under names with the prefixes replaced. -/
  attributes : List Attribute
  tagEnd : TagEnd

/-- A start tag whose `<` has been read, with less than `fuel` attributes; what follows; and what is
left of `allowance`. -/
def takeTag? (d : Doctype) (bindings : Bindings) (fuel : Nat) (t : Text) (allowance : Nat) :
    Option (Tag × Text × Nat) := do
  let (name, rest) ← takeQualified? t
  let (written, tagEnd, rest) ← takeAttributes? fuel [] rest
  if !allDistinct (written.map (·.1)) then none
  let (as, allowance) ← attributes? d name.toText written allowance
  let bindings ← as.foldlM bind? bindings
  let _ ← expand? bindings name
  let as ← (as.filter (! binds ·)).mapM fun a =>
    (expand? bindings a.name).map fun name => ({ a with name } : Attribute)
  if !allDistinct (as.map (·.name)) then none
  some (⟨⟨name.toText, bindings⟩, as, tagEnd⟩, rest, allowance)

/-! ## Content -/

/-- Reads an entity by its name where the given prefixes are bound, and answers with what is left of
the allowance. -/
abbrev EntityReader := Bindings → (name : Text) → (allowance : Nat) → Option Nat

/-- What is left of the allowance behind running text. -/
def readText? (read : EntityReader) (bindings : Bindings) (t : Text) (allowance : Nat) :
    Option Nat := do
  let ps ← pieces? t
  ps.foldlM (fun allowance p =>
    match p with
    | .entity name =>
      if (predefined.lookup name).isSome then some allowance else read bindings name allowance
    | _ => some allowance) allowance

/-- What follows the end tag of an element, whose `</` has been read. -/
def afterEndTag? (element : OpenElement) (t : Text) : Option Text := do
  let rest ← Text.dropPrefix? element.name t
  Text.dropPrefix? ">" (skipSpace rest)

/-- The place that the text of an entity opens: it has no name, so that no tag ends it. -/
def entityPlace (bindings : Bindings) : OpenElement := ⟨[], bindings⟩

/-- What follows the outermost of the open elements, the innermost of which comes first, and what is
left of `allowance`. The end of the text ends the place of an entity and no element. -/
def afterContent? (d : Doctype) (read : EntityReader) : (fuel : Nat) → List OpenElement → Text →
    (allowance : Nat) → Option (Text × Nat)
  | _, [], t, allowance => some (t, allowance)
  | 0, _ :: _, _, _ => none
  | fuel + 1, element :: outer, t, allowance =>
    let text := t.takeWhile (· != '<')
    if Text.occurs "]]>" text then none
    else match readText? read element.bindings text allowance, t.dropWhile (· != '<') with
      | none, _ => none
      | some allowance, [] => if element.name.isEmpty then some ([], allowance) else none
      | some allowance, _ :: '/' :: rest =>
        if element.name.isEmpty then none
        else match afterEndTag? element rest with
          | some rest => afterContent? d read fuel outer rest allowance
          | none => none
      | some allowance, _ :: '!' :: '[' :: rest =>
        match Text.dropPrefix? "CDATA[" rest >>= afterMark? "]]>" with
        | some rest => afterContent? d read fuel (element :: outer) rest allowance
        | none => none
      | some allowance, mark :: rest =>
        match afterMisc? (mark :: rest) with
        | some rest => afterContent? d read fuel (element :: outer) rest allowance
        | none =>
          match takeTag? d element.bindings (fuel + 1) rest allowance with
          | none => none
          | some (⟨inner, _, .opens⟩, rest, allowance) =>
            afterContent? d read fuel (inner :: element :: outer) rest allowance
          | some (⟨_, _, .closes⟩, rest, allowance) =>
            afterContent? d read fuel (element :: outer) rest allowance

/-- Reads entities inside one another to the given depth. -/
def readEntity? (d : Doctype) : (depth : Nat) → EntityReader
  | 0, _, _, _ => none
  | depth + 1, bindings, name, allowance =>
    match d.entities.lookup name with
    | some (.text t) =>
      if byteSize t ≤ allowance then
        (afterContent? d (readEntity? d depth) (t.length + 1) [entityPlace bindings] t
          (allowance - byteSize t)).map (·.2)
      else none
    | _ => none

end ChangeReview.Markup
