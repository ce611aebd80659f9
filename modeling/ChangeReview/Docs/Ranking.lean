import ChangeReview.Change.File
import ChangeReview.Docs.Folder
import ChangeReview.Text.Scan

/-!
# Keywords and ranking

What the documents are searched for, and the sections that are found.
-/
namespace ChangeReview.Docs

/-!
## Keywords of a change set

The terms under which documentation is searched: words of the title, parts of the changed paths
with the topics they hint at, and the modules and declarations that the diff names. Terms come in
the order of first mention and are cut to a fixed number.
-/

/-- The most terms. -/
def maxKeywords : Nat := 20

/-- The fewest characters of a term that is no topic. -/
def minKeywordLength : Nat := 4

/-- Words that say nothing about a change. -/
def stopWords : List Text :=
  Text.words ("the and for that this with from have been will your more when some them than into " ++
    "only other then also make made like time very just file code test docs info data type name " ++
    "index")

/-- The topic that a fragment of a path hints at. -/
def pathTopics : List (Text × Text) := [
  ("test", "testing"), ("api", "api"), ("auth", "authentication"), ("db", "database"),
  ("database", "database"), ("security", "security"), ("schema", "schema"),
  ("config", "configuration"), ("migration", "migration")]

/-- A token that is long enough and says something. -/
def isKeyword (token : Text) : Bool :=
  minKeywordLength ≤ token.length && !stopWords.contains token

/-- The term of a token, if it makes one. -/
def term? (token : Text) : Option Text :=
  let token := Text.lower token
  if isKeyword token then some token else none

/-- The terms of a path: its parts, and the topics of the fragments that occur in it. -/
def pathTerms (path : Text) : List Text :=
  let parts := Text.splitBy (fun c => c == '/' || c == '-' || c == '_' || c == '.') path
  let lowered := Text.lower path
  parts.filterMap term? ++
    (pathTopics.filter fun hint => Text.occurs hint.1 lowered).map (·.2)

def isQuote (c : Char) : Bool := c == '\'' || c == '"'

/-- The module between quotes behind blanks and `from`, and the rest. -/
def fromClause? (t : Text) : Option (Text × Text) := do
  let t ← Text.skipBlanks? t
  let t ← Text.skipBlanks? (← Text.dropPrefix? "from" t)
  match t with
  | quote :: r =>
    if !isQuote quote then none
    else
      let (module, r) ← Text.takeSome? (fun c => !isQuote c) r
      if r.isEmpty then none else some (module, r.drop 1)
  | [] => none

/-- The first `from` clause of the line. -/
def fromClauseOnLine? : Text → Option (Text × Text)
  | [] => none
  | c :: r =>
    match fromClause? (c :: r) with
    | some found => some found
    | none => if c == '\n' then none else fromClauseOnLine? r

/-- The texts behind some of the blanks at the front, those behind most of them first. -/
def behindBlanks : Text → List Text
  | [] => []
  | c :: r => if Text.isBlank c then behindBlanks r ++ [r] else []

/-- A script's import with the module it names. -/
def scriptImport : Text.Pattern Text := fun _ ahead => do
  let rest ← Text.dropPrefix? "import" ahead
  let (module, rest) ← (behindBlanks rest).findSome? fromClauseOnLine?
  some (module, ahead.length - rest.length)

def isModuleChar (c : Char) : Bool := Text.isWordChar c || c == '.'

/-- `from`, a module and `import`. -/
def fromImport? (t : Text) : Option (Text × Text) := do
  let rest ← Text.skipBlanks? (← Text.dropPrefix? "from" t)
  let (module, rest) ← Text.takeSome? isModuleChar rest
  let rest ← Text.dropPrefix? "import" (← Text.skipBlanks? rest)
  some (module, rest)

/-- `import` and a module. -/
def plainImport? (t : Text) : Option (Text × Text) := do
  let rest ← Text.skipBlanks? (← Text.dropPrefix? "import" t)
  Text.takeSome? isModuleChar rest

/-- The line without a diff marker or a space in front. -/
def dropMarker (t : Text) : Text :=
  match t with
  | c :: r => if c == '+' || c == '-' || c == ' ' then r else t
  | [] => []

/-- An import statement at the start of a line with the module it names. -/
def lineImport : Text.Pattern Text := fun prev ahead =>
  if prev.isSome && prev != some '\n' then none
  else do
    let body := Text.trimLeft (dropMarker ahead)
    let (module, rest) ← match fromImport? body with
      | some found => some found
      | none => plainImport? body
    some (module, ahead.length - rest.length)

/-- The terms of a module's name. -/
def moduleTerms (module : Text) : List Text :=
  (Text.splitBy (fun c => c == '/' || c == '-' || c == '_' || c == '.' || c == '@') module).filterMap
    term?

/-- The terms of a diff: imported modules, classes and functions. -/
def diffTerms (diff : Text) : List Text :=
  (Text.matchesOf scriptImport diff).flatMap moduleTerms ++
    (Text.matchesOf lineImport diff).flatMap moduleTerms ++
    (Text.matchesOf (Text.namedAfter ["class"]) diff).filterMap term? ++
    (Text.matchesOf (Text.namedAfter ["function", "def"]) diff).filterMap term?

/-- The items without those that were there before. -/
def distinct (items : List Text) : List Text :=
  items.foldl (fun done t => if done.contains t then done else done ++ [t]) []

/-- All terms of a change set, with repetitions. -/
def allTerms (title : Option Text) (files : List ChangedFile) (diff : Option Text) : List Text :=
  (Text.words (title.getD [])).filterMap term? ++ files.flatMap (fun f => pathTerms f.path) ++
    diffTerms (diff.getD [])

/-- The search terms of a change set. -/
def keywords (title : Option Text) (files : List ChangedFile) (diff : Option Text) : List Text :=
  (distinct (allTerms title files diff)).take maxKeywords

/-!
## Ranking sections

A section's relevance to a query, and the most relevant sections of some documents. Case does not
matter, and sections of equal relevance keep the order of the documents.
-/

/-- A section with its relevance to a query. -/
structure Ranked where
  document : Document
  part : Section
  relevance : Nat
  deriving DecidableEq, Repr

/-- Two points for every occurrence in a text of a query word longer than two characters. -/
def wordScore (query text : Text) : Nat :=
  ((Text.words query).filter fun w => 2 < w.length).foldr (fun w n => 2 * Text.count w text + n) 0

/-- Ten points where heading and content hold the query, the points of its words in them, and five
points where the heading holds the query. -/
def score (s : Section) (query : Text) : Nat :=
  let query := Text.trim (Text.lower query)
  if query.isEmpty then 0
  else
    let text := Text.lower (s.heading ++ ' ' :: s.content)
    (if Text.occurs query text then 10 else 0) +
      wordScore query text +
      (if Text.occurs query (Text.lower s.heading) then 5 else 0)

/-- The sections with a positive score for a query, in the order of the documents. -/
def hits (docs : List Document) (query : Text) : List Ranked :=
  docs.flatMap fun d => d.sections.filterMap fun s =>
    let relevance := score s query
    if relevance = 0 then none else some ⟨d, s, relevance⟩

/-- Most relevant first; equal relevance keeps the order. -/
def Ranked.sort (rs : List Ranked) : List Ranked :=
  rs.mergeSort fun a b => b.relevance ≤ a.relevance

/-- The most relevant sections for a query, up to a limit. -/
def search (docs : List Document) (query : Text) (limit : Int) : List Ranked :=
  Text.takeLimit limit (Ranked.sort (hits docs query))

end ChangeReview.Docs
