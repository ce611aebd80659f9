import ChangeReview.Docs.Ranking

/-!
# Documentation context of a change set

The sections that matter for a change: the best ones for each of its keywords, every section once
with its best relevance, and the first section of each key document. The most relevant of these
form the context.
-/
namespace ChangeReview.Docs

/-- The documents that always contribute their first section. -/
def keyDocuments : List Text := ["architecture", "patterns", "file-structure", "security"]

/-- The relevance of a key document's first section that no keyword found. -/
def keyRelevance : Nat := 3

/-- The most sections that one keyword contributes. -/
def perKeyword : Int := 3

/-- The most sections of a context. -/
def maxSections : Nat := 10

/-- A section of the context, with what prompts and reports show of it. -/
structure Relevant where
  filename : Text
  title : Text
  heading : Text
  content : Text
  relevance : Nat
  deriving DecidableEq, Repr

/-- The documentation context of a run. -/
structure Context where
  available : Bool
  summary : Text := []
  relevant : List Relevant := []
  documentCount : Nat := 0
  documents : List Document := []
  deriving DecidableEq, Repr

namespace Ranked

/-- What tells sections apart: the document's file name and the heading. -/
def key (r : Ranked) : Text × Text := (r.document.filename, r.part.heading)

/-- Enters a section: a new one at the end, a known one in its place where it is more relevant. -/
def enter (r : Ranked) : List Ranked → List Ranked
  | [] => [r]
  | q :: rest =>
    if q.key = r.key then (if q.relevance < r.relevance then r else q) :: rest
    else q :: enter r rest

def toRelevant (r : Ranked) : Relevant :=
  ⟨r.document.filename, r.document.title, r.part.heading, Text.trim r.part.content, r.relevance⟩

end Ranked

/-- The first section of a key document, if the document is there and has one. -/
def keySection? (docs : List Document) (name : Text) : Option Ranked := do
  let document ← find? docs name
  let part ← document.sections.head?
  some ⟨document, part, keyRelevance⟩

/-- The candidates with a key document's section, unless that is there already. -/
def addKey (rs : List Ranked) (r : Ranked) : List Ranked :=
  if rs.any fun q => q.key = r.key then rs else rs ++ [r]

/-- The sections that some keyword found, in the order of discovery. -/
def found (docs : List Document) (terms : List Text) : List Ranked :=
  (terms.flatMap fun term => search docs term perKeyword).foldl (fun rs r => r.enter rs) []

/-- All candidates for the context. -/
def candidates (docs : List Document) (terms : List Text) : List Ranked :=
  (keyDocuments.filterMap (keySection? docs)).foldl addKey (found docs terms)

/-- The numbered lines of the first sections, counted from `n`. -/
def listed (n : Nat) : List Relevant → List Text
  | [] => []
  | r :: rest =>
    (Text.ofNat n ++ ". " ++ r.title ++ " - " ++ r.heading ++ " (relevance: " ++
      Text.ofNat r.relevance ++ ")") :: listed (n + 1) rest

/-- What a context holds, for a reader. -/
def summarize (docs : List Document) (relevant : List Relevant) : Text :=
  Text.join "\n" ([
    "Architecture Documentation Context:".toList,
    "- Total documents: " ++ Text.ofNat docs.length,
    "- Available: " ++ Text.join ", " (docs.map (·.title)),
    "- Relevant sections retrieved: " ++ Text.ofNat relevant.length] ++
    if relevant.isEmpty then []
    else [[], "Most relevant sections:".toList] ++ listed 1 (relevant.take 5))

/-- The context of a change set in some documents. -/
def Context.build (docs : List Document) (title : Option Text) (files : List ChangedFile)
    (diff : Option Text) : Context :=
  if docs.isEmpty then { available := false }
  else
    let ranked := Ranked.sort (candidates docs (keywords title files diff))
    let relevant := (ranked.take maxSections).map Ranked.toRelevant
    { available := true
      summary := summarize docs relevant
      relevant
      documentCount := docs.length
      documents := docs }

/-!
## Documentation in prompts

The parts of a documentation context that prompts quote. Where there is nothing to quote the text
is empty.
-/

/-- The most characters of a document that a prompt quotes. -/
def excerptLength : Int := 2000

/-- The lines of a quoted section. -/
def quoteLines (r : Relevant) : List Text :=
  ["### " ++ r.title ++ " - " ++ r.heading, [], r.content, [], "---".toList, []]

/-- The relevant sections as a block of a prompt. -/
def promptBlock (context : Option Context) : Text :=
  match context with
  | none => []
  | some c =>
    if !c.available || c.relevant.isEmpty then []
    else Text.join "\n" ([
      "## Repository Architecture Context".toList,
      [],
      ("The following sections from the architecture documentation are relevant to this " ++
        "change:").toList,
      []] ++ c.relevant.flatMap quoteLines)

/-- The start of a whole document. -/
def excerpt (context : Option Context) (filename : Text) (limit : Int) : Text :=
  match context with
  | none => []
  | some c =>
    if !c.available then []
    else match find? c.documents filename with
      | some d => Text.takeLimit limit d.content
      | none => []

def securityGuidance (context : Option Context) : Text := excerpt context "security" excerptLength

def patternsGuidance (context : Option Context) : Text := excerpt context "patterns" excerptLength

/-- A quoted document under a heading; nothing if there is nothing to quote. -/
def headed (heading : Text) (text : Text) : List Text :=
  if text.isEmpty then [] else [heading ++ "\n\n" ++ text]

/-- Improvement guidelines and quality standards, whichever there are. -/
def qualityGuidance (context : Option Context) : Text :=
  Text.join "\n\n"
    (headed "## Repository Improvement Guidelines"
        (excerpt context "recommendations" excerptLength) ++
      headed "## Code Quality Standards" (excerpt context "code-quality" excerptLength))

end ChangeReview.Docs
