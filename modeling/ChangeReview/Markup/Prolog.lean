import ChangeReview.Markup.Declaration

/-!
# The front of a document

The declaration of the document, its comments and processing instructions, and its document type.
-/
namespace ChangeReview.Markup

/-- What follows the first `mark`. -/
def afterMark? (mark : Text) : Text → Option Text
  | [] => none
  | c :: r =>
    match Text.dropPrefix? mark (c :: r) with
    | some rest => some rest
    | none => afterMark? mark r

/-- A text between quotation marks of one kind, and what follows. -/
def takeQuoted? : Text → Option (Text × Text)
  | c :: r =>
    if c == '"' || c == '\'' then
      match r.dropWhile (· != c) with
      | _ :: rest => some (r.takeWhile (· != c), rest)
      | [] => none
    else none
  | [] => none

/-- What follows a comment whose opening has been read: two dashes end it. -/
def afterComment? (t : Text) : Option Text := afterMark? "--" t >>= Text.dropPrefix? ">"

/-- What follows a processing instruction whose `<?` has been read. Its target is no `xml`. -/
def afterInstruction? (t : Text) : Option Text := do
  let (target, rest) ← takeName? t
  if target.map Char.toLower == "xml".toList then none
  else match rest with
    | '?' :: '>' :: rest => some rest
    | c :: rest => if isSpace c then afterMark? "?>" rest else none
    | [] => none

/-- What follows a comment or processing instruction at the front. -/
def afterMisc? (t : Text) : Option Text :=
  match Text.dropPrefix? "<!--" t, Text.dropPrefix? "<?" t with
  | some rest, _ => afterComment? rest
  | _, some rest => afterInstruction? rest
  | _, _ => none

/-- The text behind all spaces, comments and instructions at the front; at most `fuel` of them. -/
def skipMisc : (fuel : Nat) → Text → Text
  | 0, t => t
  | fuel + 1, t =>
    match afterMisc? (skipSpace t) with
    | some rest => skipMisc fuel rest
    | none => skipSpace t

/-! ## The declaration of the document -/

/-- The characters of the values in the declaration. -/
def isPlain (c : Char) : Bool := Text.isAsciiAlnum c || c == '.' || c == '-' || c == '_'

/-- One `name="value"` of the declaration behind a space, and what follows. -/
def takeSetting? (t : Text) : Option ((Text × Text) × Text) := do
  let (name, rest) ← takeName? (← skipSomeSpace? t)
  let rest ← Text.dropPrefix? "=" (skipSpace rest)
  let (value, rest) ← takeQuoted? (skipSpace rest)
  if value.all isPlain then some ((name, value), rest) else none

/-- The settings of the declaration, at most `fuel` of them, and what follows them. -/
def takeSettings : (fuel : Nat) → Text → List (Text × Text) × Text
  | 0, t => ([], t)
  | fuel + 1, t =>
    match takeSetting? t with
    | some (setting, rest) => (takeSettings fuel rest).map (setting :: ·) id
    | none => ([], t)

/-- An encoding's name starts with a letter. -/
def isEncodingName : Text → Bool
  | c :: _ => Text.isAsciiLetter c
  | [] => false

/-- The settings that may follow the version. -/
def fitsVersion : List (Text × Text) → Bool
  | [] => true
  | (name, value) :: rest =>
    if name == "encoding" then isEncodingName value && (rest.isEmpty || fitsStandalone rest)
    else fitsStandalone ((name, value) :: rest)
where
  fitsStandalone : List (Text × Text) → Bool
    | [(name, value)] => name == "standalone" && (value == "yes" || value == "no")
    | _ => false

/-- What follows the declaration whose `<?xml` has been read, and whether it says that the document
stands alone. -/
def afterDeclaration? (t : Text) : Option (Bool × Text) := do
  let (settings, rest) := takeSettings 3 t
  let rest ← Text.dropPrefix? "?>" (skipSpace rest)
  match settings with
  | (name, _) :: others =>
    if name == "version" && fitsVersion others then
      some (others.contains ("standalone".toList, "yes".toList), rest)
    else none
  | [] => none

/-! ## The document type -/

/-- The declarations up to the closing bracket, at most `fuel` of them, and what follows it. -/
def takeSubset? : (fuel : Nat) → Doctype → Text → Option (Doctype × Text)
  | 0, _, _ => none
  | fuel + 1, d, t =>
    match skipSpace t with
    | ']' :: rest => some (d, rest)
    | '%' :: r =>
      match takeName? r with
      | some (_, ';' :: rest) => takeSubset? fuel d.skip rest
      | _ => none
    | t =>
      match afterMisc? t with
      | some rest => takeSubset? fuel d rest
      | none =>
        match takeDeclaration? fuel d t with
        | some (d, rest) => takeSubset? fuel d rest
        | none => none

/-- The tokens name the root element, and perhaps a place outside the document with further
declarations. -/
def openDoctype? (d : Doctype) : List Token → Option Doctype
  | [token] => if isElementName token then some d else none
  | token :: location =>
    if isElementName token && afterLocation? location == some [] then
      some { d with hasUnread := true }
    else none
  | [] => none

/-- The declarations of a document type whose `<!DOCTYPE` has been read, and what follows it. -/
def takeDoctype? (d : Doctype) (t : Text) : Option (Doctype × Text) := do
  let (tokens, mark, rest) ← Token.takeUntil? ">[" (t.length + 1) [] (← skipSomeSpace? t)
  let d ← openDoctype? d tokens
  if mark == '>' then some (d, rest)
  else do
    let (d, rest) ← takeSubset? rest.length d rest
    let rest ← Text.dropPrefix? ">" (skipSpace rest)
    some (d, rest)

/-- The declarations at the front of a document whose entities may make as many bytes as `allowance`
says, and the document from its root on. -/
def takeProlog? (allowance : Nat) (t : Text) : Option (Doctype × Text) := do
  let (standsAlone, rest) ← match Text.dropPrefix? "<?xml" t with
    | some (c :: r) =>
      if isNameChar c || c == ':' then some (false, t) else afterDeclaration? (c :: r)
    | _ => some (false, t)
  let d : Doctype := { standsAlone, allowance }
  let rest := skipMisc rest.length rest
  match Text.dropPrefix? "<!DOCTYPE" rest with
  | some r => do
    let (d, rest) ← takeDoctype? d r
    some (d, skipMisc rest.length rest)
  | none => some (d, rest)

end ChangeReview.Markup
