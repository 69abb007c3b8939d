import Protoschema.Command.Run
/-!
The command line. The files that a command names are read first; the command then runs on the tree
that they make up, and the files that it changed are written back. Directories are not searched, so
patterns match among the files that are named.
-/

namespace Protoschema.Shell

/-- The path of some names as the system knows it. -/
def systemPath (names : Names) : String :=
  match names with
  | [] => "."
  | "/" :: rest => "/" ++ "/".intercalate rest
  | names => "/".intercalate names

/-- Adds what lies under some names to a tree. -/
def addNames (disk : Disk) (names : Names) : IO Disk := do
  match ← (IO.FS.readBinFile (systemPath names)).toBaseIO with
  | .ok octets => return disk.put names (Content.ofOctets octets.toList)
  | .error (.noFileOrDirectory ..) => return disk
  | .error (.inappropriateType ..) =>
    return if disk.has names then disk
      else { disk with directories := disk.directories ++ [names] }
  | .error error => throw error

/-- Adds what components lead through, from the given names on. Nothing lies in a file. -/
def addFrom (disk : Disk) (names : Names) : List Component → IO Disk
  | [] => return disk
  | component :: rest =>
    if (disk.file? names).isSome then return disk
    else do
      let next := Disk.step names component
      addFrom (← addNames disk next) next rest

/-- Adds a path, with all that it leads through. -/
def addPath (disk : Disk) (path : Path) : IO Disk :=
  addFrom disk [] path.components

/-- The paths that settings name. -/
def settingsPaths (settings : Command.Settings) : List Path :=
  settings.config.toList ++ settings.inputs

/-- The paths that a delivery writes to. -/
def deliveryPaths (delivery : Command.Delivery) : List Path :=
  delivery.build.toList ++
    match delivery.target with
    | .output => []
    | .file path | .directory path => [path]

/-- The paths that a command names. -/
def commandPaths : Command.Request → List Path
  | .proto settings delivery => settingsPaths settings ++ deliveryPaths delivery
  | .check settings => settingsPaths settings
  | .version => []

/-- Writes back what has changed. -/
def writeBack (before after : Disk) : IO Unit := do
  for names in after.directories do
    if !before.hasDirectory names then IO.FS.createDirAll (systemPath names)
  for (names, content) in before.changes after do
    match content with
    | .text text => IO.FS.writeFile (systemPath names) text
    | .octets octets => IO.FS.writeBinFile (systemPath names) ⟨octets.toArray⟩

/-- How the program is called. -/
def usage : String :=
  "Usage: oas-proto <proto|check> --input <INPUT>... [OPTIONS]\n"

/-- Runs the command that arguments stand for. -/
def runCommand (arguments : List String) : IO UInt32 := do
  match Command.Request.ofArguments arguments with
  | .error .help =>
    IO.print usage
    return 0
  | .error error =>
    IO.eprint ("error: " ++ error.message ++ "\n\n" ++ usage)
    return 2
  | .ok command =>
    let disk ← (commandPaths command).foldlM addPath {}
    let outcome := Command.run { disk } command
    writeBack disk outcome.disk
    IO.print outcome.output
    IO.eprint outcome.messages
    return UInt32.ofNat outcome.exit

end Protoschema.Shell

/-- The command line of the compiler. -/
def main (arguments : List String) : IO UInt32 :=
  Protoschema.Shell.runCommand arguments
