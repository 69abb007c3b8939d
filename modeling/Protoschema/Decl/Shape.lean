import Protoschema.Schema.Node
/-!
The shape of a node: which of its keywords decides what it becomes. Shapes come in the order of
precedence. Also the scalar type of a schema by its type and format.
-/

namespace Protoschema

/-- What a node becomes. -/
inductive Shape
  | link (reference : Reference)
  | union (schema : Schema Node)
  | composition (schema : Schema Node)
  | openMap (schema : Schema Node) (additional : Additional Node)
  | object (schema : Schema Node)
  | array (schema : Schema Node)
  | enum (schema : Schema Node) (values : List Json.Value)
  | scalar (schema : Schema Node)

namespace Shape

/-- The shape of an inline schema. -/
def ofSchema (schema : Schema Node) : Shape :=
  if schema.oneOf ≠ [] then .union schema
  else if schema.allOf ≠ [] then .composition schema
  else
    match schema.additional, schema.type, schema.values with
    | some additional, _, _ => .openMap schema additional
    | none, some .object, _ => .object schema
    | none, some .array, _ => .array schema
    | none, some .string, some values => .enum schema values
    | none, none, some values => .enum schema values
    | none, _, _ => .scalar schema

/-- The shape of a node. -/
def of : Node → Shape
  | .ref reference => .link reference
  | .inline schema => ofSchema schema

/-- The word for a shape. -/
def name : Shape → String
  | .link _ => "reference"
  | .union _ => "union"
  | .composition _ => "composition"
  | .openMap _ _ => "map"
  | .object _ => "object"
  | .array _ => "array"
  | .enum _ _ => "enum"
  | .scalar _ => "scalar"

/-- Whether a node of this shape gets a declaration of its own, to which references link. -/
def declares : Shape → Bool
  | .union _ | .composition _ | .object _ | .enum _ _ => true
  | _ => false

end Shape

/-- The formats of integers that are scalar types themselves. -/
def integerFormats : List String :=
  ["int32", "int64", "uint32", "uint64", "sint32", "sint64", "fixed32", "fixed64", "sfixed32",
    "sfixed64"]

/-- The scalar type of a schema; none when it has no type. -/
def Schema.scalar? {ν : Type} (schema : Schema ν) : Option String :=
  match schema.type with
  | none => none
  | some .number => some (if schema.format = some "float" then "float" else "double")
  | some .integer =>
    match schema.format with
    | some format => some (if format ∈ integerFormats then format else "int32")
    | none => some "int32"
  | some .boolean => some "bool"
  | some .string => some (if schema.format = some "binary" then "bytes" else "string")
  | some type => some type.name

end Protoschema
