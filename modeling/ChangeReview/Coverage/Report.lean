import ChangeReview.Value.Basic

/-!
# Coverage reports

The figures of a coverage report: one for the whole, and one for each of its first files. Figures
are values, as a report may write anything in their place; a figure that is absent is `null`.
-/
namespace ChangeReview

/-- The coverage of one file. -/
structure FileCoverage where
  file : Value
  lines : Value
  branches : Value := .null

/-- The coverage of a repository. -/
structure CoverageReport where
  available : Value
  tool : Value := .null
  overall : Value := .null
  lines : Value := .null
  branches : Value := .null
  files : List FileCoverage := []

/-- The coverage of a file as an object. -/
def FileCoverage.toValue (f : FileCoverage) : Value :=
  .members ([("file", f.file), ("lineCoverage", f.lines)] ++
    Value.unlessNull "branchCoverage" f.branches)

/-- A coverage report as an object, without the figures that it lacks. -/
def CoverageReport.toValue (r : CoverageReport) : Value :=
  .members ([("available", r.available)] ++ Value.unlessNull "coverageTool" r.tool ++
    Value.unlessNull "overallPercentage" r.overall ++ Value.unlessNull "lineCoverage" r.lines ++
    Value.unlessNull "branchCoverage" r.branches ++
    (if r.files.isEmpty then [] else [("fileBreakdown", .list (r.files.map FileCoverage.toValue))]))

namespace Coverage

/-- The most files that a report lists. -/
def maxFiles : Nat := 20

/-- The report of a repository without one. -/
def unavailable : CoverageReport := { available := .bool false }

end Coverage

end ChangeReview
