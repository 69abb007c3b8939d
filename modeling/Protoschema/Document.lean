import Protoschema.Schema.Node
/-!
A document: the schemas of an API description, by name and in the order of the text, with the few
words about the whole that are kept.
-/

namespace Protoschema

/-- What a document says of itself. -/
structure Info where
  title : Option String := none
  version : Option String := none
deriving DecidableEq, Repr

/-- A document. -/
structure Document where
  openapi : Option String := none
  info : Option Info := none
  schemas : Entries Node := []
deriving Repr, Inhabited

namespace Document

/-- The names of the schemas, in the order of the text. -/
def names (document : Document) : List String :=
  document.schemas.keys

/-- The top-level schema of a name. -/
def schema? (document : Document) (name : String) : Option Node :=
  document.schemas.get? name

/-- The node at a place. References on the way are not followed. -/
def lookup (document : Document) (location : Location) : Option Node :=
  (document.schema? location.root).bind (·.descend location.properties)

/-- The number of nodes of a document. -/
def size (document : Document) : Nat :=
  (document.schemas.map fun entry => entry.2.size).foldr (· + ·) 0

/-- The references of a document, schema by schema. -/
def references (document : Document) : List Reference :=
  document.schemas.flatMap fun entry => entry.2.references

/-- Applies a function to the top-level schemas. -/
def mapSchemas (document : Document) (f : String → Node → Node) : Document :=
  { document with schemas := document.schemas.map fun entry => (entry.1, f entry.1 entry.2) }

end Document

end Protoschema
