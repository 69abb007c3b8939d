import Protoschema.Ident
/-!
Pointers: the text of a reference. A pointer has a document part, up to its first `#`, and a
fragment after it; it is local when the document part is empty. Schemas of a document are addressed
below `#/components/schemas/`, with `~` and `/` of their names escaped.
-/

namespace Protoschema.Pointer

/-- The document part and the fragment of a pointer. -/
def split (pointer : String) : String × String :=
  let cs := pointer.toList
  (String.ofList (cs.takeWhile (· != '#')), String.ofList ((cs.dropWhile (· != '#')).drop 1))

/-- Whether a pointer leads into another document. -/
def isExternal (pointer : String) : Bool :=
  (split pointer).1 != ""

/-- The last non-empty segment of the fragment, or of the document part when there is no fragment;
the whole of it when all its segments are empty. -/
def lastName (pointer : String) : String :=
  let (document, fragment) := split pointer
  let path := if fragment = "" then document else fragment
  match (path.toList.splitOn '/').reverse.find? (! ·.isEmpty) with
  | some segment => String.ofList segment
  | none => path

/-- A name as one segment of a pointer: `~` is written `~0` and `/` is written `~1`. -/
def escapeChars : List Char → List Char
  | [] => []
  | c :: rest =>
    if c = '~' then '~' :: '0' :: escapeChars rest
    else if c = '/' then '~' :: '1' :: escapeChars rest
    else c :: escapeChars rest

/-- A name as one segment of a pointer. -/
def escape (name : String) : String :=
  String.ofList (escapeChars name.toList)

/-- Where a document's schemas are addressed. -/
def schemasRoot : String := "#/components/schemas/"

/-- The pointer of a top-level schema. -/
def ofSchema (name : String) : String :=
  schemasRoot ++ escape name

/-- The pointer of a property of the schema that `pointer` addresses. -/
def property (pointer name : String) : String :=
  pointer ++ "/properties/" ++ escape name

/-- The pointer of the schema reached from `root` down a chain of properties. -/
def ofLocation (root : String) (properties : List String) : String :=
  properties.foldl property (ofSchema root)

end Protoschema.Pointer
