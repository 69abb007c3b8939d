import Protoschema.Command.Settings
import Protoschema.Compilation
import Protoschema.Files.Glob
import Protoschema.Reading.File
import Protoschema.Text.Blank
/-!
Running a command on a tree of files. Everything is loaded and compiled before anything is written,
so a run that fails in that part leaves the files as they are.
-/

namespace Protoschema.Command

/-- How the builder ends, whatever it is called with. -/
structure BuildReply where
  exit : Nat
  messages : String
deriving DecidableEq, Repr

/-- The place that a command runs in. -/
structure Machine where
  disk : Disk
  /-- The builder, if there is one. -/
  builder : Option BuildReply := none
deriving DecidableEq, Repr

/-- What comes of a command. -/
structure Outcome where
  exit : Nat
  output : String := ""
  messages : String := ""
  disk : Disk
  /-- The arguments of each call of the builder. -/
  calls : List (List String) := []
deriving DecidableEq, Repr

/-- Why a command fails. -/
inductive Failure
  | config (path : Path) (error : LoadError)
  | badPattern (pattern : String) (error : Glob.PatternError)
  | noMatch (pattern : String)
  | load (path : Path) (error : LoadError)
  | compile (path : Path) (error : SchemaError)
  | severalInputs (count : Nat)
  | sameTarget (first second out : Path)
  | create (path : Path) (error : FileError)
  | write (path : Path) (error : FileError)
  | nothingToBuild
  | noBuilder (error : FileError)
  | builder (path : Path) (messages : String)
  | schemas (count : Nat)
deriving DecidableEq, Repr

/-- The wording of a failure, with the causes behind it. -/
def Failure.message : Failure → String
  | .config path error => "failed to load config " ++ path ++ ": " ++ error.chain
  | .badPattern pattern error => "bad glob pattern: " ++ pattern ++ ": " ++ error.message
  | .noMatch pattern => "glob pattern matched no files: " ++ pattern
  | .load path error => "failed to load " ++ path ++ ": " ++ error.chain
  | .compile path error => "failed to compile " ++ path ++ ": " ++ error.message
  | .severalInputs count =>
    "--out takes a single input, got " ++ toString count ++ "; use --out-dir"
  | .sameTarget first second out =>
    first ++ " and " ++ second ++ " would both be written to " ++ out
  | .create path error => "failed to create " ++ path ++ ": " ++ error.text
  | .write path error => "failed to write " ++ path ++ ": " ++ error.text
  | .nothingToBuild => "--build needs --out or --out-dir"
  | .noBuilder error => "failed to run protoc: " ++ error.text
  | .builder path messages => "protoc failed on " ++ path ++ ": " ++ messages
  | .schemas count => toString count ++ " schema(s) failed to compile"

/-- The last message of a run that failed. -/
def Failure.line (failure : Failure) : String :=
  "error: " ++ failure.message ++ "\n"

/-! ### Loading and compiling -/

/-- A compiled input. -/
structure Compiled where
  path : Path
  text : String
  compilation : Compilation

/-- The options of a run. -/
def loadOptions (disk : Disk) (settings : Settings) : Except Failure Options :=
  match settings.config with
  | none => .ok (settings.apply {})
  | some path =>
    match disk.loadOptions path with
    | .ok options => .ok (settings.apply options)
    | .error error => .error (.config path error)

/-- The paths that an input stands for. -/
def inputPaths (disk : Disk) (input : String) : Except Failure (List Path) :=
  if Glob.isPattern input then
    match Glob.expand disk input with
    | .error error => .error (.badPattern input error)
    | .ok [] => .error (.noMatch input)
    | .ok paths => .ok paths
  else .ok [input]

/-- Loads and compiles a file. -/
def compileFile (disk : Disk) (options : Options) (path : Path) : Except Failure Compiled :=
  match disk.loadDocument path with
  | .error error => .error (.load path error)
  | .ok document =>
    match (document.compile options).2 with
    | .error error => .error (.compile path error)
    | .ok compilation => .ok { path, compilation, text := compilation.text options }

/-- Loads and compiles all inputs. -/
def compileAll (disk : Disk) (settings : Settings) : Except Failure (List Compiled) := do
  let options ← loadOptions disk settings
  let paths ← settings.inputs.mapM (inputPaths disk)
  paths.flatten.mapM (compileFile disk options)

/-! ### Reports -/

/-- The line that reports a diagnostic. -/
def reportLine (path : Path) (diagnostic : Diagnostic) : String :=
  diagnostic.severity.name ++ ": " ++ path ++ ": [" ++ diagnostic.schema ++ "] "
    ++ diagnostic.message ++ "\n"

/-- The lines that report the diagnostics of an input. -/
def Compiled.report (compiled : Compiled) : String :=
  String.join (compiled.compilation.diagnostics.map (reportLine compiled.path))

/-- The line that sums up an input. -/
def Compiled.status (compiled : Compiled) : String :=
  let failures := compiled.compilation.failures.length
  (if failures = 0 then "ok " else "failed ") ++ compiled.path ++ ": "
    ++ toString compiled.compilation.declarations.length ++ " declaration(s), "
    ++ toString failures ++ " skipped\n"

/-! ### Targets -/

/-- The file that the compiled text of an input goes to in a directory. -/
def targetIn (directory input : Path) : Path :=
  Path.withExtension (directory.join (input.stem?.getD input)) "proto"

/-- Adds the target of an input to those of others, which must all be different. -/
def addTarget (directory : Path) (taken : List (Path × Path)) (input : Path) :
    Except Failure (List (Path × Path)) :=
  let out := targetIn directory input
  match taken.find? fun entry => entry.1.components = out.components with
  | some (_, first) => .error (.sameTarget first input out)
  | none => .ok (taken ++ [(out, input)])

/-- The files that the compiled texts of inputs go to in a directory. -/
def targetsIn (directory : Path) (inputs : List Path) : Except Failure (List Path) := do
  let taken ← inputs.foldlM (addTarget directory) []
  return taken.map Prod.fst

/-- The files that compiled texts go to; none if they are printed. -/
def targets (target : Target) (compiled : List Compiled) : Except Failure (List Path) :=
  match target with
  | .output => .ok []
  | .file path =>
    if compiled.length = 1 then .ok [path] else .error (.severalInputs compiled.length)
  | .directory path => targetsIn path (compiled.map Compiled.path)

/-! ### Writing and building -/

/-- Writes a file, and makes its directory before. -/
def writeFile (disk : Disk) (path : Path) (text : String) : Disk × Option Failure :=
  let parent := path.parent?.getD ""
  match disk.makeDirectory parent with
  | .error error => (disk, some (.create parent error))
  | .ok made =>
    match made.write path text with
    | .error error => (made, some (.write path error))
    | .ok written => (written, none)

/-- Writes files up to the first that cannot be written. -/
def writeAll (disk : Disk) : List (Path × String) → Disk × Option Failure
  | [] => (disk, none)
  | (path, text) :: rest =>
    match writeFile disk path text with
    | (disk, none) => writeAll disk rest
    | (disk, some failure) => (disk, some failure)

/-- The arguments that the builder gets for a file. -/
def buildArguments (directory : Path) (language : String) (path : Path) : List String :=
  let parent := match path.parent? with
    | none | some "" => "."
    | some parent => parent
  ["--" ++ language ++ "_out=" ++ directory, "--proto_path=" ++ parent, path]

/-- Runs the builder on files up to the first that it fails on. -/
def buildAll (builder : Option BuildReply) (directory : Path) (language : String) (disk : Disk) :
    List Path → Disk × List (List String) × Option Failure
  | [] => (disk, [], none)
  | path :: rest =>
    match disk.makeDirectory directory with
    | .error error => (disk, [], some (.create directory error))
    | .ok made =>
      match builder with
      | none => (made, [], some (.noBuilder .missing))
      | some reply =>
        let call := buildArguments directory language path
        if reply.exit = 0 then
          let (disk, calls, failure) := buildAll builder directory language made rest
          (disk, call :: calls, failure)
        else
          let messages := String.ofList (Text.trim reply.messages.toList)
          (made, [call], some (.builder path messages))

/-! ### Commands -/

/-- A run that ends with a failure or without one. -/
def Outcome.finish (outcome : Outcome) : Option Failure → Outcome
  | none => outcome
  | some failure => { outcome with exit := 1, messages := outcome.messages ++ failure.line }

/-- Runs the builder on written files if that is wanted. -/
def buildStep (machine : Machine) (delivery : Delivery) (written : List Path) (outcome : Outcome) :
    Outcome :=
  match delivery.build with
  | none => outcome
  | some directory =>
    if written.isEmpty then outcome.finish (some .nothingToBuild)
    else
      let (disk, calls, failure) :=
        buildAll machine.builder directory delivery.language outcome.disk written
      { outcome with disk, calls }.finish failure

/-- Delivers compiled texts. -/
def deliver (machine : Machine) (delivery : Delivery) (compiled : List Compiled) : Outcome :=
  let start : Outcome := {
    exit := 0
    messages := String.join (compiled.map Compiled.report)
    disk := machine.disk }
  match targets delivery.target compiled with
  | .error failure => start.finish (some failure)
  | .ok paths =>
    match delivery.target with
    | .output =>
      buildStep machine delivery paths
        { start with output := String.join (compiled.map Compiled.text) }
    | _ =>
      match writeAll machine.disk (paths.zip (compiled.map Compiled.text)) with
      | (disk, some failure) => { start with disk }.finish (some failure)
      | (disk, none) => buildStep machine delivery paths { start with disk }

/-- Reports on compiled inputs. -/
def sumUp (disk : Disk) (compiled : List Compiled) : Outcome :=
  let failures := (compiled.map fun unit => unit.compilation.failures.length).foldr (· + ·) 0
  let outcome : Outcome := {
    exit := 0
    messages := String.join (compiled.map fun unit => unit.report ++ unit.status)
    disk }
  outcome.finish (if failures = 0 then none else some (.schemas failures))

/-- Compiles and writes. -/
def runProto (machine : Machine) (settings : Settings) (delivery : Delivery) : Outcome :=
  match compileAll machine.disk settings with
  | .error failure => Outcome.finish { exit := 0, disk := machine.disk } (some failure)
  | .ok compiled => deliver machine delivery compiled

/-- Compiles and reports. -/
def runCheck (disk : Disk) (settings : Settings) : Outcome :=
  match compileAll disk settings with
  | .error failure => Outcome.finish { exit := 0, disk } (some failure)
  | .ok compiled => sumUp disk compiled

/-- The name and version of the program. -/
def versionText : String := "oas-proto 0.1.0\n"

/-- Runs a command. -/
def run (machine : Machine) : Request → Outcome
  | .proto settings delivery => runProto machine settings delivery
  | .check settings => runCheck machine.disk settings
  | .version => { exit := 0, output := versionText, disk := machine.disk }

end Protoschema.Command
