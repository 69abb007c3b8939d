import Protoschema.Files.Disk
import Protoschema.Reading.Load
/-!
Documents and settings from files.
-/

namespace Protoschema

/-- Why a file cannot be loaded. -/
inductive LoadError
  | unreadable (path : Path) (error : FileError)
  | malformed (fault : Reading.Fault)
deriving DecidableEq, Repr

namespace LoadError

/-- The wording of a load error. -/
def message : LoadError → String
  | .unreadable path error => "cannot read " ++ path ++ ": " ++ error.text
  | .malformed fault => "at " ++ fault.place.text ++ ": " ++ fault.message

/-- The wording of a load error with the causes behind it. -/
def chain : LoadError → String
  | .unreadable path error =>
    (LoadError.unreadable path error).message ++ ": " ++ error.text
  | .malformed fault => (LoadError.malformed fault).message

end LoadError

/-- Reads a file as its format says. -/
def Disk.load {α : Type} (disk : Disk) (read : Format → String → Except Reading.Fault α)
    (path : Path) : Except LoadError α :=
  match disk.read path with
  | .error error => .error (.unreadable path error)
  | .ok text =>
    match read (Format.ofPath path) text with
    | .error fault => .error (.malformed fault)
    | .ok value => .ok value

/-- Loads a document. -/
def Disk.loadDocument (disk : Disk) (path : Path) : Except LoadError Document :=
  disk.load Document.ofText path

/-- Loads settings. -/
def Disk.loadOptions (disk : Disk) (path : Path) : Except LoadError Options :=
  disk.load Options.ofText path

end Protoschema
