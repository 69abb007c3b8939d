import Protoschema.Entries
/-!
The settings of a compilation.
-/

namespace Protoschema

/-- What happens when a schema cannot be compiled. -/
inductive RunMode
  /-- The first such schema ends the compilation. -/
  | strict
  /-- It is reported and left out. -/
  | lenient
deriving DecidableEq, Repr

/-- The settings of a compilation. -/
structure Options where
  /-- Whether enum values carry the name of their enum in front. -/
  enumPrefix : Bool := false
  /-- The names that packages of other documents have in the output. -/
  renames : Entries String := []
  /-- The schemas to compile; all when none are given. -/
  only : Option (List String) := none
  /-- Lines to be written as options of the file. -/
  optionLines : List String := []
  package : Option String := none
  mode : RunMode := .lenient
  /-- Whether a top-level list or map is put into a message of its own. -/
  boxTopLevel : Bool := true
deriving DecidableEq, Repr

namespace Options

/-- The name that a package of another document has in the output. -/
def packageName (options : Options) (package : String) : String :=
  (options.renames.get? package).getD package

/-- The renames in ascending order of the package renamed. -/
def sortedRenames (options : Options) : List (String × String) :=
  options.renames.mergeSort fun a b => decide (a.1 ≤ b.1)

end Options

end Protoschema
