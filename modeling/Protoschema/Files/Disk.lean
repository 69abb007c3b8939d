import Protoschema.Files.Path
/-!
A tree of files, seen from the directory that paths start in. A file is found under the names that
lead to it; a directory is there if it was made or if something lies in it. The root, and what lies
above the start, are directories of which nothing else is known.
-/

namespace Protoschema

/-- What a file holds: a text, or octets that are no text. -/
inductive Content
  | text (value : String)
  | octets (value : List UInt8)
deriving DecidableEq, Repr

/-- The content that octets make up. -/
def Content.ofOctets (octets : List UInt8) : Content :=
  match String.fromUTF8? ⟨octets.toArray⟩ with
  | some value => .text value
  | none => .octets octets

/-- Why something cannot be done with a file. -/
inductive FileError
  | missing
  | alreadyThere
  | notDirectory
  | isDirectory
  | notText
  | other (text : String)
deriving DecidableEq, Repr

/-- The wording of a file error. -/
def FileError.text : FileError → String
  | .missing => "No such file or directory (os error 2)"
  | .alreadyThere => "File exists (os error 17)"
  | .notDirectory => "Not a directory (os error 20)"
  | .isDirectory => "Is a directory (os error 21)"
  | .notText => "stream did not contain valid UTF-8"
  | .other text => text

/-- The names that lead to a file or a directory. -/
abbrev Names := List String

/-- A tree of files. -/
structure Disk where
  files : List (Names × Content) := []
  /-- The directories that were made. -/
  directories : List Names := []
deriving DecidableEq, Repr, Inhabited

namespace Disk

/-- The content of the file under some names. -/
def file? (disk : Disk) (names : Names) : Option Content :=
  disk.files.lookup names

/-- Whether names lead through other names. -/
def leadsThrough (names through : Names) : Bool :=
  through.isPrefixOf names && through.length < names.length

/-- Whether names lead to the start, to what lies above it, or to the root. -/
def areAbove (names : Names) : Bool :=
  names.all (· == "..") || names == ["/"]

/-- Whether there is a directory under some names. -/
def hasDirectory (disk : Disk) (names : Names) : Bool :=
  areAbove names || disk.directories.contains names
    || (disk.files.map Prod.fst ++ disk.directories).any fun other => leadsThrough other names

/-- Whether there is anything under some names. -/
def has (disk : Disk) (names : Names) : Bool :=
  (disk.file? names).isSome || disk.hasDirectory names

/-- The names of what lies in the directory under some names. -/
def childrenOf (disk : Disk) (names : Names) : List String :=
  ((disk.files.map Prod.fst ++ disk.directories).filterMap fun other =>
    if leadsThrough other names then (other.drop names.length).head? else none).eraseDups

/-! ### Paths -/

/-- The names that a component leads to. -/
def step (names : Names) : Component → Names
  | .root => ["/"]
  | .here => names
  | .up =>
    if names == ["/"] then names
    else if areAbove names then names ++ [".."]
    else names.dropLast
  | .name text => names ++ [text]

/-- Follows one component, which must start in a directory. -/
def follow (disk : Disk) (names : Names) (component : Component) : Except FileError Names :=
  if disk.hasDirectory names then .ok (step names component)
  else if (disk.file? names).isSome then .error .notDirectory
  else .error .missing

/-- The names that a path leads to; all but the last must be there. -/
def resolve (disk : Disk) (path : Path) : Except FileError Names :=
  if path = "" then .error .missing else path.steps.foldlM disk.follow []

/-- Whether a path is written as that of a directory, with a slash at its end. -/
def namesDirectory (path : Path) : Bool :=
  path.toList.getLast? == some '/'

/-! ### Reading -/

/-- The text of a file. -/
def read (disk : Disk) (path : Path) : Except FileError String := do
  let names ← disk.resolve path
  match disk.file? names with
  | some content =>
    if namesDirectory path then .error .notDirectory
    else
      match content with
      | .text value => return value
      | .octets _ => .error .notText
  | none => if disk.hasDirectory names then .error .isDirectory else .error .missing

/-- Whether a path leads to a directory. -/
def isDirectory (disk : Disk) (path : Path) : Bool :=
  match disk.resolve path with
  | .ok names => disk.hasDirectory names
  | .error _ => false

/-- Whether a path leads to anything. -/
def isThere (disk : Disk) (path : Path) : Bool :=
  match disk.resolve path with
  | .ok names => disk.hasDirectory names || ((disk.file? names).isSome && !namesDirectory path)
  | .error _ => false

/-- The names of what lies in a directory. -/
def list (disk : Disk) (path : Path) : Except FileError (List String) := do
  let names ← disk.resolve path
  if disk.hasDirectory names then return disk.childrenOf names
  else if (disk.file? names).isSome then .error .notDirectory
  else .error .missing

/-! ### Writing -/

/-- Puts a file under some names. -/
def put (disk : Disk) (names : Names) (content : Content) : Disk :=
  if (disk.file? names).isSome then
    { disk with files := disk.files.map fun file =>
      if file.1 = names then (names, content) else file }
  else { disk with files := disk.files ++ [(names, content)] }

/-- Writes a file. Its directory must be there. -/
def write (disk : Disk) (path : Path) (text : String) : Except FileError Disk := do
  let names ← disk.resolve path
  if disk.hasDirectory names || namesDirectory path then .error .isDirectory
  else return disk.put names (.text text)

/-- Makes a directory. What it lies in must be there, and it must not. -/
def makeOne (disk : Disk) (path : Path) : Except FileError Disk := do
  let names ← disk.resolve path
  if disk.has names then .error .alreadyThere
  else return { disk with directories := disk.directories ++ [names] }

/-- Makes a directory unless it is there. -/
def ensureOne (disk : Disk) (path : Path) : Except FileError Disk :=
  match disk.makeOne path with
  | .ok made => .ok made
  | .error error => if disk.isDirectory path then .ok disk else .error error

/-- Makes the first of some directories, each of which lies in the next. Those that it lies in are
made before if it cannot be made without them. -/
def makeThrough (disk : Disk) : List Path → Except FileError Disk
  | [] => .ok disk
  | path :: above =>
    match disk.ensureOne path with
    | .error .missing => do (← disk.makeThrough above).ensureOne path
    | result => result

/-- Makes a directory, with those on the way to it. -/
def makeDirectory (disk : Disk) (path : Path) : Except FileError Disk :=
  disk.makeThrough path.ancestors

/-! ### Changes -/

/-- The files that are new, or other than before. -/
def changes (before after : Disk) : List (Names × Content) :=
  after.files.filter fun file => before.file? file.1 != some file.2

end Disk

end Protoschema
