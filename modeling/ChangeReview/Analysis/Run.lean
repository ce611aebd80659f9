import ChangeReview.Backend.Basic
import ChangeReview.Cache
import ChangeReview.Docs.Folder
import ChangeReview.Report.Reading
import ChangeReview.Workflow.Context
import ChangeReview.Workflow.Run

/-!
# Analyses

An analysis serves a report from the cache, or runs the workflow over the backend that the settings
name and puts the report into the cache. What the cache holds under a key is only served if it reads
as a report; otherwise the run takes place as if nothing were there.
-/
namespace ChangeReview.Analysis

/-!
## Requests

What an analysis is asked for. A request names little; the settings, the disk and the diff complete
it to the context of a run. Requests with the same key get the same cached report.
-/

/-- A diff to analyze, and how. What is a value here may hold anything. -/
structure Request where
  diff : Value
  title : Value := .null
  /-- The settings; without any, those of the environment. -/
  settings : Option Settings := none
  language : Value := .null
  framework : Value := .null
  /-- Whether the scanner is asked for; if it is not said, the settings decide. -/
  wantsScan : Option Bool := none
  repository : Value := .text "."
  mode : Option Report.Mode := none
  scanOptions : Option Scan.Options := none
  usesDocs : Bool := true
  /-- The cache to use; without one, the settings decide whether the repository's own is used. -/
  cache : Option Cache := none
  /-- Whether the run is quick; if it is not said, the size of the change decides. -/
  quick : Option Bool := none

/-- The files of a diff; nothing has none, and only a text has lines. -/
def filesOf (diff : Value) : Except Fault (List ChangedFile) :=
  (diff.textFor "splitlines").map fun t => Diff.parse (t.getD [])

/-- What documents say about a change. Only where there are documents is the title searched. -/
def docsContext (documents : List Docs.Document) (title : Value) (files : List ChangedFile)
    (diff : Option Text) : Except Fault Docs.Context := do
  let title ← if documents.isEmpty then pure none else title.textFor "split"
  return Docs.Context.build documents title files diff

/-- What the documents of a repository say about a change, if the repository has any. -/
def docsFor (d : Disk) (repository title : Value) (files : List ChangedFile)
    (diff : Option Text) : Except Fault (Option Docs.Context) := do
  let repository ← repository.toPath
  if ← Docs.present d repository then
    return some (← docsContext (← Docs.load d repository) title files diff)
  return none

/-- Fewer files make a change small. -/
def manyFiles : Nat := 5

/-- A shorter diff makes a change small. -/
def longDiff : Nat := 10000

/-- A change is small by its number of files or by the length of its diff. -/
def isSmall (files length : Nat) : Bool := files < manyFiles || length < longDiff

/-- A request that is ready to run. -/
structure Prepared where
  settings : Settings
  context : Context
  cache : Option Cache
  quick : Bool

/-- The cache of a request: its own, or that of the repository if the settings ask for it. -/
def cacheFor (settings : Settings) (q : Request) : Except Fault (Option Cache) :=
  match q.cache, settings.useCache with
  | some c, _ => .ok (some c)
  | none, true => q.repository.toPath.map fun path => some (.ofRepository path)
  | none, false => .ok none

/-- The request with all that it leaves to the settings, the disk and the diff. -/
def prepare (env : Environment) (d : Disk) (q : Request) : Except Fault Prepared := do
  let settings ← match q.settings with
    | some s => pure s
    | none => Settings.load env
  let files ← filesOf q.diff
  let docs ← if q.usesDocs then docsFor d q.repository q.title files q.diff.text? else pure none
  let context ← Context.ofArguments {
    files, docs
    diff := q.diff
    tokenBudget := settings.tokenBudget
    maxCost := settings.maxCost
    repository := q.repository
    title := q.title
    mode := some (q.mode.getD {})
    language := q.language
    framework := q.framework
    wantsScan := q.wantsScan.getD settings.staticAnalysis
    scanOptions := q.scanOptions }
  let cache ← cacheFor settings q
  return {
    settings, context, cache
    quick := q.quick.getD (isSmall files.length context.diff.length) }

namespace Prepared

/-- What tells one report from another. -/
def identity (p : Prepared) : Value :=
  let c := p.context
  let documents := match c.docs with
    | some docs => docs.documents.map (·.filename)
    | none => []
  .members [
    ("diff", .text c.diff),
    ("title", c.title),
    ("provider", p.settings.provider),
    ("model", p.settings.model),
    ("language", c.language),
    ("framework", c.framework),
    ("static_analysis", c.scanEnabled),
    ("arch_docs", .ofTexts documents)]

/-- The key of the report in a cache. -/
def key (p : Prepared) : Text := Cache.key p.identity

/-- The options of the backend that answers. -/
def backendOptions (p : Prepared) : List (Text × Value) := [
  ("model", p.settings.model),
  ("max_tokens", p.settings.maxTokens),
  ("temperature", p.settings.temperature)]

end Prepared

/-! ## Serving and running -/

/-- Where analyses take place: the disk, the registry of backends, and the state of what stands
behind the backends. -/
structure Site (σ : Type) where
  disk : Disk
  registry : Registry σ (Backend σ)
  here : σ

/-- What an analysis finds around it: the environment, the time in seconds, and what becomes of an
attempt to start the scanner. -/
structure Surroundings where
  environment : Environment := []
  now : Instant
  scanner : Scan.Outcome

/-- An analysis that is over. -/
structure Ended (σ τ : Type) where
  site : Site σ
  observer : τ
  trace : Trace := {}
  report : Except Fault Report

/-- The last line of the reasoning of a cached report. -/
def servedLine : Text := "Result served from cache"

/-- The report with the notice that it was cached. -/
def served (r : Report) : Report := { r with reasoning := r.reasoning ++ [.text servedLine] }

/-- A value that is no report is passed over for the fault. -/
def isDiscarded : Fault → Bool
  | .missingKey _ => true
  | fault => fault.isBadValue || fault.isMismatch

/-- The report in a cache, if the cache has one under the key. -/
def fetch (c : Cache) (d : Disk) (now : Instant) (key : Text) : Disk × Except Fault (Option Report) :=
  match c.get d now key Cache.defaultLife with
  | (d, .error fault) => (d, .error fault)
  | (d, .ok none) => (d, .ok none)
  | (d, .ok (some v)) =>
    match Report.ofValue v with
    | .ok r => (d, .ok (some (served r)))
    | .error fault => (d, if isDiscarded fault then .ok none else .error fault)

/-- The report in the cache of a request, if there is one. -/
def fetchFor (p : Prepared) (d : Disk) (now : Instant) : Disk × Except Fault (Option Report) :=
  match p.cache with
  | some c => fetch c d now p.key
  | none => (d, .ok none)

/-- The disk with a report in the cache of its request. -/
def remember (p : Prepared) (d : Disk) (now : Instant) (r : Report) : Disk × Except Fault Unit :=
  match p.cache, r.toValue with
  | none, _ => (d, .ok ())
  | some c, .ok v => c.set d now p.key v
  | some _, .error fault => (d, .error fault)

variable {σ τ : Type}

/-- Runs the workflow over a backend, the quick way or the recorded way. -/
def execute (p : Prepared) (s : Surroundings) (o : Workflow.Observer τ) (b : Backend σ)
    (site : Site σ) (watching : τ) : Ended σ τ :=
  let w : World σ := ⟨b, s.scanner⟩
  let origin := Workflow.originOf b p.settings.provider .null
  if p.quick then
    let e := Workflow.runQuick w site.here site.disk origin p.context
    ⟨{ site with here := e.run.backend }, watching, e.run.trace, e.report⟩
  else
    let e := Workflow.runRecorded w o site.here watching site.disk origin p.context
    let run := e.recording.run
    ⟨{ site with here := run.backend }, e.recording.observer, run.trace, e.report⟩

/-- The analysis with its report in the cache. -/
def kept (p : Prepared) (s : Surroundings) (e : Ended σ τ) : Ended σ τ :=
  match e.report with
  | .error _ => e
  | .ok r =>
    let (disk, stored) := remember p e.site.disk s.now r
    { e with site := { e.site with disk }, report := stored.map fun _ => r }

/-- Runs the workflow over the backend that the settings name. -/
def compute (p : Prepared) (s : Surroundings) (o : Workflow.Observer τ) (site : Site σ)
    (watching : τ) : Ended σ τ :=
  match p.settings.provider with
  | .text name =>
    let (registry, here, built) := site.registry.get site.here name p.backendOptions
    let site := { site with registry, here }
    match built with
    | .error fault => ⟨site, watching, {}, .error fault⟩
    | .ok b => kept p s (execute p s o b site watching)
  | v => ⟨site, watching, {}, .error (.noMember v.kind "lower")⟩

/-- Analyzes a diff. -/
def analyze (s : Surroundings) (o : Workflow.Observer τ) (site : Site σ) (watching : τ)
    (q : Request) : Ended σ τ :=
  match prepare s.environment site.disk q with
  | .error fault => ⟨site, watching, {}, .error fault⟩
  | .ok p =>
    let (disk, fetched) := fetchFor p site.disk s.now
    let site := { site with disk }
    match fetched with
    | .error fault => ⟨site, watching, {}, .error fault⟩
    | .ok (some r) => ⟨site, watching, {}, .ok r⟩
    | .ok none => compute p s o site watching

end ChangeReview.Analysis
