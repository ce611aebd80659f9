import ChangeReview.Markup.Doctype
import ChangeReview.Markup.Name

/-!
# Declarations

The declarations of a document type, read from their tokens: entities, attributes, elements and
notations. Those of elements and notations say nothing that is kept, but they are checked.
-/
namespace ChangeReview.Markup

/-- A letter, digit, space, line end, or one of a few marks: what public identifiers are made of. -/
def isPublic (c : Char) : Bool :=
  Text.isAsciiAlnum c || " \r\n-'()+,./:=?;!*#@$_%".toList.contains c

/-- The tokens behind those that say where something outside the document lies. -/
def afterLocation? : List Token → Option (List Token)
  | .name k :: .quoted t :: rest =>
    if k == "SYSTEM" then some rest
    else match rest with
      | .quoted _ :: rest => if k == "PUBLIC" && t.all isPublic then some rest else none
      | _ => none
  | _ => none

/-- The declaration of an entity. -/
def declareEntity? (d : Doctype) : List Token → Option Doctype
  | [.mark '%', .name _, .quoted t] => d.checkText? t
  | .mark '%' :: .name _ :: rest => if afterLocation? rest == some [] then some d else none
  | [.name name, .quoted t] => d.declareText? name t
  | .name name :: rest =>
    match afterLocation? rest with
    | some [] => some (d.declare name .outside)
    | some [.name k, .name _] => if k == "NDATA" then some (d.declare name .outside) else none
    | _ => none
  | _ => none

/-! ## Attributes -/

/-- The types of attributes whose values consist of words. -/
def wordTypes : List Text :=
  ["ID", "IDREF", "IDREFS", "ENTITY", "ENTITIES", "NMTOKEN", "NMTOKENS"]

/-- The tokens behind the choices between parentheses, the first of which has been read. -/
def afterChoices? (isChoice : Token → Bool) : List Token → Option (List Token)
  | choice :: .mark m :: rest =>
    if !isChoice choice then none
    else if m == ')' then some rest
    else if m == '|' then afterChoices? isChoice rest
    else none
  | _ => none

def isName : Token → Bool
  | .name _ => true
  | _ => false

def isElementName : Token → Bool
  | .name _ | .prefixed _ => true
  | _ => false

def isNameToken : Token → Bool
  | .name _ | .prefixed _ | .nameToken _ => true
  | _ => false

/-- Whether values of the type at the front consist of words, and the tokens behind the type. -/
def takeType? : List Token → Option (Bool × List Token)
  | .mark '(' :: rest => (afterChoices? isNameToken rest).map (true, ·)
  | .name k :: rest =>
    if k == "CDATA" then some (false, rest)
    else if wordTypes.contains k then some (true, rest)
    else match rest with
      | .mark '(' :: rest =>
        if k == "NOTATION" then (afterChoices? isName rest).map (true, ·) else none
      | _ => none
  | _ => none

/-- The value of an attribute where it is not written, if it has one, and the tokens behind it. -/
def takeDefault? : List Token → Option (Option Text × List Token)
  | .quoted t :: rest => some (some t, rest)
  | .hash k :: rest =>
    if k == "IMPLIED" || k == "REQUIRED" then some (none, rest)
    else match rest with
      | .quoted t :: rest => if k == "FIXED" then some (some t, rest) else none
      | _ => none
  | _ => none

/-- The name that a token writes. -/
def nameOf? : Token → Option Text
  | .name t | .prefixed t => some t
  | _ => none

/-- The declarations of attributes of an element, at most `fuel` of them. -/
def declareAttributes? (element : Text) : (fuel : Nat) → Doctype → List Token → Option Doctype
  | _, d, [] => some d
  | 0, _, _ :: _ => none
  | fuel + 1, d, token :: rest => do
    let name ← nameOf? token
    let (hasWords, rest) ← takeType? rest
    let (value, rest) ← takeDefault? rest
    let d ← d.declareAttribute? element name hasWords value
    declareAttributes? element fuel d rest

/-- The declaration of the attributes of an element. -/
def declareAttributeList? (d : Doctype) : List Token → Option Doctype
  | token :: rest => do declareAttributes? (← nameOf? token) rest.length d rest
  | [] => none

/-! ## Elements and notations -/

/-- The tokens close all open groups. A group joins its items by one kind of mark, the one that
`joints` holds for each open group, the innermost first; `hasItem` says whether an item has just
been read. -/
def closesGroups : (joints : List (Option Char)) → (hasItem : Bool) → List Token → Bool
  | [], _, rest => rest.isEmpty
  | joint :: outer, true, .mark m :: rest =>
    if m == ')' then closesGroups outer true rest
    else (m == ',' || m == '|') && (joint.isNone || joint == some m) &&
      closesGroups (some m :: outer) false rest
  | _ :: outer, true, .countedClose _ :: rest => closesGroups outer true rest
  | joints, false, .mark m :: rest => m == '(' && closesGroups (none :: joints) false rest
  | joints, false, .name _ :: rest => closesGroups joints true rest
  | joints, false, .prefixed _ :: rest => closesGroups joints true rest
  | joints, false, .countedName _ :: rest => closesGroups joints true rest
  | _, _, _ => false

/-- The tokens list the elements that may stand between running text. -/
def closesMixture : List Token → Bool
  | [.countedClose c] => c == '*'
  | .mark m :: token :: rest => m == '|' && isElementName token && closesMixture rest
  | _ => false

/-- The tokens say what an element contains. -/
def isContentModel : List Token → Bool
  | [.name k] => k == "EMPTY" || k == "ANY"
  | .mark m :: .hash k :: rest =>
    m == '(' && k == "PCDATA" && (rest == [.mark ')'] || closesMixture rest)
  | .mark m :: rest => m == '(' && closesGroups [none] false rest
  | _ => false

/-- The declaration of an element. -/
def checkElement? (d : Doctype) : List Token → Option Doctype
  | token :: rest => if isElementName token && isContentModel rest then some d else none
  | [] => none

/-- The declaration of a notation. -/
def checkNotation? (d : Doctype) : List Token → Option Doctype
  | [.name _, .name k, .quoted t] =>
    if k == "SYSTEM" || (k == "PUBLIC" && t.all isPublic) then some d else none
  | [.name _, .name k, .quoted t, .quoted _] =>
    if k == "PUBLIC" && t.all isPublic then some d else none
  | _ => none

/-! ## All kinds -/

/-- The openings of declarations, and how each kind is read. -/
def declarations : List (Text × (Doctype → List Token → Option Doctype)) :=
  [("<!ENTITY", declareEntity?), ("<!ATTLIST", declareAttributeList?),
   ("<!ELEMENT", checkElement?), ("<!NOTATION", checkNotation?)]

/-- One declaration of at most `fuel` tokens, and what follows it. -/
def takeDeclaration? (fuel : Nat) (d : Doctype) (t : Text) : Option (Doctype × Text) := do
  let (declareFrom?, rest) ← declarations.findSome? fun (opening, f) =>
    (Text.dropPrefix? opening t).map (f, ·)
  let (tokens, _, rest) ← Token.takeUntil? ">" fuel [] (← skipSomeSpace? rest)
  let d ← declareFrom? d tokens
  some (d, rest)

end ChangeReview.Markup
