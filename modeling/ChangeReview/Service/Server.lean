import ChangeReview.Analysis.Run
import ChangeReview.Value.Writer

/-!
# The server

A server offers the tools at an address. It comes up only with usable settings; how it fails shows
in the exit code.
-/
namespace ChangeReview.Service

/-!
## Tools

What the service offers its clients: the analysis of a diff, and a description of itself. The answer
of a tool is always a JSON text; a fault is an answer as well.
-/

def name : Text := "pr-analyzer-mcp"

def version : Text := "0.3.0"

/-- The name of the tool that analyzes a diff. -/
def analyzeName : Text := "analyze_diff"

/-- The name of the tool that describes the service. -/
def describeName : Text := "get_capabilities"

/-- The tools by name. -/
def toolNames : List Text := [analyzeName, describeName]

/-- The answer of a tool that failed. -/
def failure (tool : Text) (fault : Fault) : Value :=
  let field : List (String × Value) := match fault.field? with
    | some (c :: r) => [("field", .text (c :: r))]
    | _ => []
  .members ([
    ("summary", .text ("Tool '" ++ tool ++ "' failed: " ++ fault.message)),
    ("fileAnalyses", .object []),
    ("fixes", .list []),
    ("recommendations", .list []),
    ("error", .text fault.message)] ++ field)

/-- The text of an answer. -/
def write (v : Value) : Text := Value.write (.spaces 2) v

/-! ### The analysis -/

/-- The arguments of the analysis, of which only the first has no default. -/
def argumentNames : List Text :=
  ["diff", "title", "language", "framework", "enable_static_analysis", "repo_path"]

/-- The fault of arguments with which the analysis cannot be called. -/
def checkArguments (given : List Text) : Except Fault Unit :=
  match given.find? fun name => !argumentNames.contains name with
  | some name => .error (.mismatch (.unexpectedArgument name))
  | none =>
    if given.contains "diff" then .ok () else .error (.mismatch (.missingArgument "diff"))

/-- A notice to the client while a tool runs. -/
structure Notice where
  message : Text
  level : Text
  sender : Text
  deriving DecidableEq, Repr

/-- The notice that a stage is over. -/
def Notice.ofProgress (p : Workflow.Progress) : Notice where
  message := "[analyze] stage " ++ Text.ofNat p.number ++ "/" ++ Text.ofNat p.total ++ " done: " ++
    p.stage
  level := "info"
  sender := "pr_analyzer.workflow"

/-- A client who is sent a notice of every stage. -/
def client : Workflow.Observer (List Notice) := ⟨fun ns p => (ns ++ [.ofProgress p], .ok ())⟩

/-- The answer that a report makes. -/
def answerOf (report : Except Fault Report) : Value :=
  match report >>= Report.toValue with
  | .ok v => v
  | .error fault => failure analyzeName fault

/-- Answers a request for an analysis: the site behind it, the notices sent, and the answer. -/
def analyze {σ : Type} (s : Analysis.Surroundings) (site : Analysis.Site σ) (q : Analysis.Request) :
    Analysis.Site σ × List Notice × Value :=
  let e := Analysis.analyze s client site [] q
  (e.site, e.observer, answerOf e.report)

/-! ### The description -/

/-- What the service says of itself. -/
def describe {σ ι : Type} (r : Registry σ ι) (scanner : Scan.Outcome) : Value :=
  .members [
    ("name", .text name),
    ("version", .text version),
    ("providers", .ofTexts supportedProviders),
    ("registeredBackends", .ofTexts r.names),
    ("stages", .ofTexts (Workflow.stages.map (·.name))),
    ("semgrepInstalled", .bool (scanner != .notInstalled))]

/-! ## Starting -/

/-- A server of tools. -/
structure Server where
  name : Text
  version : Text
  transport : Text
  host : Text
  portNumber : Nat
  tools : List Text
  deriving DecidableEq, Repr

/-- The server of this service. -/
def server : Server where
  name := name
  version := version
  transport := "streamable-http"
  host := "127.0.0.1"
  portNumber := 8089
  tools := toolNames

/-- The exit code of a server whose settings are bad. -/
def badSettings : Int := 2

/-- The exit code of a server that cannot listen. -/
def cannotListen : Int := 1

/-- The server that is started in an environment, if it comes to that, and how its run ends. -/
def launch (env : Environment) (listen : Except Fault Unit) : Option Server × Except Fault Unit :=
  match Settings.load env with
  | .error (.configuration ..) => (none, .error (.exit badSettings))
  | .error fault => (none, .error fault)
  | .ok _ =>
    match listen with
    | .error fault => (some server, .error (if fault.isSystem then .exit cannotListen else fault))
    | .ok () => (some server, .ok ())

end ChangeReview.Service
