/-!
Paths of files, written with slashes. A path is read as its components: runs of slashes count once,
a `.` counts only at the very start, and a leading slash is the root. The last component, unless it
is the root, `.` or `..`, is the file name; its stem ends at its last dot, a leading dot apart.
-/

namespace Protoschema

/-- One component of a path. -/
inductive Component
  | root
  | here
  | up
  | name (text : String)
deriving DecidableEq, Repr

/-- A path as it is written. -/
abbrev Path := String

namespace Path

/-- The pieces between slashes. -/
def pieces (path : Path) : List String :=
  (path.toList.splitOn '/').map String.ofList

/-- A piece after the first as a component, if it counts. -/
def laterComponent (piece : String) : Option Component :=
  if piece = "" ∨ piece = "." then none
  else if piece = ".." then some .up
  else some (.name piece)

/-- The components of a path. -/
def components (path : Path) : List Component :=
  match path.pieces with
  | [] => []
  | first :: rest =>
    let start :=
      if first = "" then (if rest.isEmpty then [] else [Component.root])
      else if first = "." then [Component.here]
      else (laterComponent first).toList
    start ++ rest.filterMap laterComponent

/-- The components that are walked through on the way to what a path names: all that are written,
a `.` in any place too. -/
def steps (path : Path) : List Component :=
  let start := if path.toList.head? = some '/' then [Component.root] else []
  start ++ path.pieces.filterMap fun piece =>
    if piece = "." then some .here else laterComponent piece

/-- The last component, if it is a name. -/
def fileName? (path : Path) : Option String :=
  match path.components.getLast? with
  | some (.name text) => some text
  | _ => none

/-- A file name cut at its last dot, unless that dot is its first character: the stem, and what
follows the dot. -/
def splitName (name : String) : String × Option String :=
  match (name.toList.splitOn '.').reverse with
  | last :: first :: rest =>
    let stem := ['.'].intercalate (first :: rest).reverse
    if stem.isEmpty then (name, none) else (String.ofList stem, some (String.ofList last))
  | _ => (name, none)

/-- The file name without its extension. -/
def stem? (path : Path) : Option String :=
  path.fileName?.map fun name => (splitName name).1

/-- What follows the stem's dot. -/
def extension? (path : Path) : Option String :=
  path.fileName?.bind fun name => (splitName name).2

/-- Drops slashes, and dots right after a slash, from the end of a path given in reverse. -/
def dropTrailing : List Char → List Char
  | '/' :: rest => dropTrailing rest
  | '.' :: '/' :: rest => dropTrailing rest
  | cs => cs

/-- The written path up to the end of its last component. -/
def trimmed (path : Path) : List Char :=
  (dropTrailing path.toList.reverse).reverse

/-- The written path in front of its file name `name`. -/
def beforeName (path : Path) (name : String) : String :=
  String.ofList (path.trimmed.take (path.trimmed.length - name.length))

/-- The path with its extension replaced. A path without a file name is left alone. A stem that is
a single dot takes no extension when the name ends the path: the result is the parent directory. -/
def withExtension (path : Path) (extension : String) : Path :=
  match path.fileName? with
  | none => path
  | some name =>
    match splitName name with
    | (".", some _) =>
      if path.trimmed = path.toList then path.beforeName name ++ ".."
      else path.beforeName name ++ ".." ++ extension
    | (stem, _) => path.beforeName name ++ stem ++ "." ++ extension

/-- Whether a path starts at the root. -/
def isAbsolute (path : Path) : Bool :=
  path.toList.head? = some '/'

/-- A path taken relative to a directory. -/
def join (dir path : Path) : Path :=
  if path.isAbsolute then path
  else if dir = "" then path
  else if dir.toList.getLast? = some '/' then dir ++ path
  else dir ++ "/" ++ path

/-- The path without its last component; none for the empty path and for the root. -/
def parent? (path : Path) : Option Path :=
  match path.components.reverse with
  | [] | [.root] => none
  | last :: before =>
    let written := match last with
      | .name text => text.length
      | .up => 2
      | _ => 1
    let front := path.trimmed.take (path.trimmed.length - written)
    if before = [.root] then some "/"
    else some (String.ofList (dropTrailing front.reverse).reverse)

/-- A path with the paths above it, from the longest to the shortest, as many as a number says. -/
def upward : Nat → Path → List Path
  | 0, _ => []
  | count + 1, path => path :: (path.parent?.map (upward count)).getD []

/-- A path and those above it, the empty one apart. -/
def ancestors (path : Path) : List Path :=
  upward path.components.length path

end Path

end Protoschema
