import Protoschema.Document
/-!
The directory of a document: which nodes a pointer can address, and under which name each of them is
declared. Addressable are the top-level schemas and, below an inline schema, its properties.
-/

namespace Protoschema

/-- What a pointer addresses: the name of the declaration there, and the place. -/
structure Address where
  name : String
  target : Location
deriving DecidableEq, Repr

/-- Addresses by pointer. -/
structure Directory where
  entries : Entries Address := []
deriving Repr, Inhabited

/-- A node on the way down a document: its pointer and place, the name it is compiled under, and the
dotted name by which its declaration is linked. -/
structure Stand where
  pointer : String
  location : Location
  hint : String
  linkName : String
deriving DecidableEq, Repr

namespace Stand

/-- Where a top-level schema stands. -/
def top (name : String) : Stand where
  pointer := Pointer.ofSchema name
  location := ⟨name, []⟩
  hint := name
  linkName := Ident.normalize name

/-- Where a property of a schema stands. -/
def property (stand : Stand) (name : String) : Stand :=
  let hint := stand.hint ++ "_" ++ name
  { pointer := Pointer.property stand.pointer name
    location := stand.location.child name
    hint := hint
    linkName := stand.linkName ++ "." ++ Ident.normalize hint }

/-- The directory entry of a node. -/
def entry (stand : Stand) : String × Address :=
  (stand.pointer, ⟨stand.linkName, stand.location⟩)

end Stand

/-- The entries of a node and of the properties below it, for where it stands. -/
def Node.entries : Node → Stand → List (String × Address) :=
  fold (fun _ stand => [stand.entry]) fun schema stand =>
    stand.entry :: schema.properties.flatMap fun property => property.2 (stand.property property.1)

namespace Node

theorem entries_ref (reference : Reference) (stand : Stand) :
    (Node.ref reference).entries stand = [stand.entry] := by
  simp [entries]

theorem entries_inline (schema : Schema Node) (stand : Stand) :
    (Node.inline schema).entries stand
      = stand.entry :: schema.properties.flatMap fun property =>
          property.2.entries (stand.property property.1) := by
  simp [entries, Schema.map, List.flatMap_map]

end Node

namespace Directory

/-- The address of a pointer. -/
def get? (directory : Directory) (pointer : String) : Option Address :=
  directory.entries.get? pointer

/-- The number of pointers. -/
def size (directory : Directory) : Nat :=
  directory.entries.length

/-- The directory of a document. -/
def ofDocument (document : Document) : Directory where
  entries := Entries.ofList <|
    document.schemas.flatMap fun entry => entry.2.entries (Stand.top entry.1)

end Directory

end Protoschema
