import ChangeReview.Coverage.Formats
import ChangeReview.Repository.Manifest

/-!
# Finding a coverage report

A repository is asked for its coverage only when it is configured to measure it. The report is then
the first of the usual files that can be read.
-/
namespace ChangeReview.Coverage

/-! ## The tool -/

/-- The packages that measure coverage, with the names of their tools, in the order in which they
are tried. -/
def toolPackages : List (Text × Text) :=
  [("jest", "jest"), ("nyc", "nyc"), ("istanbul", "nyc"), ("vitest", "vitest"), ("c8", "c8")]

/-- The settings of `jest` that switch coverage on. -/
def jestSettings : List Text := ["collectCoverage", "coverageDirectory"]

/-- The manifest configures `jest` to measure coverage. -/
def jestInManifest (manifest : List (Text × Value)) : Bool :=
  match Value.lookup "jest" manifest with
  | some (.object config) =>
    jestSettings.any fun key => ((Value.lookup key config).getD .null).truthy
  | _ => false

/-- A script that measures coverage. -/
def measures : Value → Bool
  | .text t => Text.occurs "--coverage" t || Text.occurs "nyc" t
  | _ => false

/-- Some script of the manifest measures coverage. -/
def scriptMeasures (manifest : List (Text × Value)) : Bool :=
  match Value.lookup "scripts" manifest with
  | some (.object scripts) => scripts.any fun s => measures s.2
  | _ => false

/-- The tool of the packages that a manifest depends on. -/
def toolOfPackages (manifest : List (Text × Value)) : Text :=
  let deps := Repository.dependencies manifest
  match toolPackages.find? fun e => Repository.dependsOn deps e.1 with
  | some (_, tool) => tool
  | none => "node"

/-- The first configuration file of `jest` that can be read switches coverage on. -/
def jestInFiles (d : Disk) (repository : Text) : Except Fault Bool := do
  let files : List Text := ["jest.config.js", "jest.config.ts"]
  match ← files.findSomeM? (Repository.fileText d repository) with
  | some text => return jestSettings.any (Text.occurs · text)
  | none => return false

/-- The tool with which a repository measures its coverage, if it does. -/
def detectTool (d : Disk) (repository : Text) : Except Fault (Option Text) := do
  let manifest ← Repository.manifest d repository
  if jestInManifest manifest then return some "jest".toList
  if scriptMeasures manifest then return some (toolOfPackages manifest)
  if ← jestInFiles d repository then return some "jest".toList
  if ← Repository.fileHolds d repository "setup.cfg" ["coverage"] then
    return some "pytest-cov".toList
  if ← Repository.fileHolds d repository "pyproject.toml" ["[tool.coverage", "pytest-cov"] then
    return some "pytest-cov".toList
  return none

/-! ## The report -/

/-- The formats of coverage reports. -/
inductive Format where
  | summary
  | tracefile
  | rates
  deriving DecidableEq, Repr

/-- The report that a text of the given format holds. -/
def Format.read : Format → Text → Except Fault (Option CoverageReport)
  | summary, t => ofSummary t
  | tracefile, t => ofTracefile t
  | rates, t => .ok (ofRates t)

/-- The files where a report can be, with their formats, in the order in which they are tried. -/
def reportFiles : List (Text × Format) := [
  ("coverage/coverage-summary.json", .summary),
  ("coverage/lcov.info", .tracefile),
  (".nyc_output/coverage.json", .summary),
  ("coverage.xml", .rates),
  ("htmlcov/coverage.json", .summary),
  ("coverage.json", .summary)]

/-- The report of the first of the files that holds one. -/
def firstReport (d : Disk) (repository : Text) :
    List (Text × Format) → Except Fault (Option CoverageReport)
  | [] => .ok none
  | (path, format) :: rest => do
    let report ← match ← Repository.fileText d repository path with
      | some text => format.read text
      | none => pure none
    match report with
    | some report => return some report
    | none => firstReport d repository rest

/-- The report of a repository, from any of the usual files. -/
def read (d : Disk) (repository : Text) : Except Fault CoverageReport :=
  (firstReport d repository reportFiles).map (·.getD unavailable)

/-- The report of a repository that measures its coverage. -/
def report (d : Disk) (repository : Text) : Except Fault (Option CoverageReport) := do
  match ← detectTool d repository with
  | none => return none
  | some _ => firstReport d repository reportFiles

end ChangeReview.Coverage
