import Protoschema.Command.Arguments
import Protoschema.Compilation
import Protoschema.Files.Glob
import Protoschema.Reading.File
import Protoschema.Text.Regular
/-!
Comparing compiled texts with expected ones. A case is a file `name.yaml` in a directory; its
settings are in `name.options.yaml` if that is there, its expected text in `name.proto`. Blessing
writes the expected texts anew.
-/

namespace Protoschema.Golden

open Command (Known UsageError)

/-- The settings of a comparison. -/
structure Settings where
  directory : Path := "tests/fixtures"
  bless : Bool := false
  filter : Option Regular := none
  report : Option Path := none
deriving DecidableEq, Repr

/-- What becomes of a case. -/
inductive Verdict
  | pass
  | fail
  | blessed
  | error
deriving DecidableEq, Repr

/-- The name of a verdict in a report. -/
def Verdict.name : Verdict → String
  | .pass => "pass"
  | .fail => "fail"
  | .blessed => "blessed"
  | .error => "error"

/-- Whether a verdict counts as a failure. -/
def Verdict.isFailure : Verdict → Bool
  | .fail | .error => true
  | _ => false

/-- The report on a case. -/
structure CaseReport where
  name : String
  verdict : Verdict
  diagnostics : List String := []
  error : Option String := none
deriving DecidableEq, Repr

/-! ### Cases -/

/-- Whether a file in the directory is a case. -/
def isCase (filter : Option Regular) (name : String) : Bool :=
  name.endsWith ".yaml" && !name.endsWith ".options.yaml"
    && filter.all fun regular => regular.picks name

/-- The cases of a directory, in ascending order. -/
def cases (disk : Disk) (settings : Settings) : Except FileError (List Path) := do
  let names ← disk.list settings.directory
  return Glob.sorted ((names.filter (isCase settings.filter)).map settings.directory.join)

/-- The settings of a case. -/
def caseOptions (disk : Disk) (path : Path) : Except LoadError Options :=
  let options := path.withExtension "options.yaml"
  if disk.isThere options then disk.loadOptions options else .ok {}

/-- The text and the diagnostics that a case compiles to, or why it does not. -/
def compileCase (disk : Disk) (path : Path) : Except String (String × List String) := do
  let options ← (caseOptions disk path).mapError LoadError.message
  let document ← (disk.loadDocument path).mapError LoadError.message
  let compilation ← (document.compile options).2.mapError SchemaError.message
  return (compilation.text options, compilation.diagnostics.map Diagnostic.text)

/-- The file with the expected text of a case. -/
def expectedPath (path : Path) : Path :=
  path.withExtension "proto"

/-- The expected text of a case; empty if there is none. -/
def expectedText (disk : Disk) (path : Path) : String :=
  match disk.read (expectedPath path) with
  | .ok text => text
  | .error _ => ""

/-- Runs a case. -/
def runCase (bless : Bool) (disk : Disk) (path : Path) : CaseReport × Disk :=
  let name := path.stem?.getD ""
  match compileCase disk path with
  | .error error => ({ name, verdict := .error, error := some error }, disk)
  | .ok (text, diagnostics) =>
    if bless then
      match disk.write (expectedPath path) text with
      | .ok written => ({ name, verdict := .blessed, diagnostics }, written)
      | .error error =>
        ({ name, verdict := .error, diagnostics, error := some error.text }, disk)
    else
      let verdict := if expectedText disk path = text then Verdict.pass else .fail
      ({ name, verdict, diagnostics }, disk)

/-- Runs cases one after the other. -/
def runCases (bless : Bool) (disk : Disk) : List Path → List CaseReport × Disk
  | [] => ([], disk)
  | path :: rest =>
    let (report, disk) := runCase bless disk path
    let (reports, disk) := runCases bless disk rest
    (report :: reports, disk)

/-! ### Reports -/

/-- A case report as a JSON value. -/
def CaseReport.value (report : CaseReport) : Json.Value :=
  .object <| [
    ("case", .text report.name),
    ("outcome", .text report.verdict.name),
    ("diagnostics", .list (report.diagnostics.map .text))]
    ++ (report.error.map fun error => ("error", Json.Value.text error)).toList

/-- The line that a case prints. -/
def CaseReport.line (report : CaseReport) : String :=
  match report.verdict, report.error with
  | .error, some error => "ERROR " ++ report.name ++ ": " ++ error ++ "\n"
  | .pass, _ => "PASS " ++ report.name ++ "\n"
  | .blessed, _ => "BLESSED " ++ report.name ++ "\n"
  | _, _ => "FAIL " ++ report.name ++ "\n"

/-- The line that sums up all cases. -/
def summary (reports : List CaseReport) : String :=
  toString reports.length ++ " case(s), "
    ++ toString (reports.filter (·.verdict.isFailure)).length ++ " failed"

/-- What comes of a comparison. -/
structure Outcome where
  exit : Nat
  reports : List CaseReport := []
  /-- The line that sums up all cases, if they were run. -/
  summary : Option String := none
  messages : String := ""
  disk : Disk
deriving DecidableEq, Repr

/-- Writes the report if one is wanted. A report that cannot be written changes nothing else. -/
def writeReport (disk : Disk) (report : Option Path) (reports : List CaseReport) :
    Disk × String :=
  match report with
  | none => (disk, "")
  | some path =>
    match disk.write path (Json.Value.pretty 0 (.list (reports.map CaseReport.value))) with
    | .ok written => (written, "")
    | .error error => (disk, "error: " ++ path ++ ": " ++ error.text ++ "\n")

/-- Runs a comparison. -/
def run (disk : Disk) (settings : Settings) : Outcome :=
  match cases disk settings with
  | .error error =>
    { exit := 2, messages := "error: " ++ settings.directory ++ ": " ++ error.text ++ "\n", disk }
  | .ok paths =>
    let (reports, disk) := runCases settings.bless disk paths
    let (disk, messages) := writeReport disk settings.report reports
    let exit := if reports.any (·.verdict.isFailure) then 1 else 0
    { exit, reports, summary := some (summary reports), messages, disk }

/-! ### From arguments -/

/-- The options of a comparison. -/
def options : List Known := [
  { name := "dir", arity := .once },
  { name := "bless", arity := .flag },
  { name := "filter", arity := .once },
  { name := "report", arity := .once }]

/-- The settings that arguments stand for. -/
def Settings.ofArguments (arguments : List String) : Except UsageError Settings := do
  let found ← Command.parse options arguments
  let directory ← Command.pathOf found "dir"
  let report ← Command.pathOf found "report"
  let filter ← match (Command.valuesOf found "filter").head? with
    | none => .ok none
    | some text =>
      match Regular.ofText? text with
      | some regular => .ok (some regular)
      | none => .error (.badValue "filter" text)
  return {
    directory := directory.getD "tests/fixtures"
    bless := Command.isGiven found "bless"
    filter, report }

end Protoschema.Golden
