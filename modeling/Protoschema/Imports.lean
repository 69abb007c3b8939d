import Protoschema.Entries
/-!
The imports of a compiled file: one path for each package, in the order of first use. The first path
of a package is kept.
-/

namespace Protoschema

/-- Import paths by package. -/
structure Imports where
  entries : Entries String := []
deriving DecidableEq, Repr, Inhabited

namespace Imports

/-- Notes the use of a package; only its first use counts. -/
def record (imports : Imports) (package path : String) : Imports :=
  ⟨imports.entries.addNew package path⟩

/-- Notes the uses in a list, one after the other. -/
def recordAll (imports : Imports) (uses : List (String × String)) : Imports :=
  uses.foldl (fun imports use => imports.record use.1 use.2) imports

/-- Notes the imports of another list behind these. -/
def merge (imports other : Imports) : Imports :=
  imports.recordAll other.entries

/-- The paths, in order. -/
def paths (imports : Imports) : List String :=
  imports.entries.map Prod.snd

end Imports

end Protoschema
