import Protoschema.Entries
import Protoschema.Json.Value
import Protoschema.Schema.Reference
/-!
Schema nodes. A node is a reference or an inline schema, and an inline schema holds further nodes.
`Node.fold` is the one recursion over nodes: every traversal is an instance of it, and
`Node.fold_inline` is all that a proof needs to know about it.
-/

namespace Protoschema

/-- The `type` of a schema. A word outside the standard ones is kept as it is. -/
inductive SchemaType
  | object
  | array
  | string
  | integer
  | number
  | boolean
  | custom (name : String)
deriving DecidableEq, Repr

namespace SchemaType

/-- The type that a word names. -/
def ofName (name : String) : SchemaType :=
  match name with
  | "object" => .object
  | "array" => .array
  | "string" => .string
  | "integer" => .integer
  | "number" => .number
  | "boolean" => .boolean
  | _ => .custom name

/-- The word for a type. -/
def name : SchemaType → String
  | .object => "object"
  | .array => "array"
  | .string => "string"
  | .integer => "integer"
  | .number => "number"
  | .boolean => "boolean"
  | .custom name => name

end SchemaType

/-- What a schema says of properties that it does not name: a flag, or the schema of their
values. -/
inductive Additional (ν : Type)
  | flag (value : Bool)
  | node (value : ν)
deriving Repr

/-- An inline schema whose inner nodes are of type `ν`. -/
structure Schema (ν : Type) where
  type : Option SchemaType := none
  format : Option String := none
  description : Option String := none
  properties : List (String × ν) := []
  /-- The properties in the order in which they are wanted, if one is given. -/
  order : List String := []
  items : Option ν := none
  allOf : List ν := []
  oneOf : List ν := []
  anyOf : List ν := []
  additional : Option (Additional ν) := none
  values : Option (List Json.Value) := none
deriving Repr

/-- A schema node. -/
inductive Node
  | ref (reference : Reference)
  | inline (schema : Schema Node)
deriving Repr

instance : Inhabited Node := ⟨.inline {}⟩

namespace Additional

variable {ν μ : Type}

/-- The node, if there is one. -/
def node? : Additional ν → Option ν
  | .flag _ => none
  | .node value => some value

/-- Applies a function to the node. -/
def map (f : ν → μ) : Additional ν → Additional μ
  | .flag value => .flag value
  | .node value => .node (f value)

end Additional

namespace Schema

variable {ν μ : Type}

/-- Applies a function to every inner node. -/
def map (f : ν → μ) (schema : Schema ν) : Schema μ where
  type := schema.type
  format := schema.format
  description := schema.description
  properties := schema.properties.map fun entry => (entry.1, f entry.2)
  order := schema.order
  items := schema.items.map f
  allOf := schema.allOf.map f
  oneOf := schema.oneOf.map f
  anyOf := schema.anyOf.map f
  additional := schema.additional.map (·.map f)
  values := schema.values

/-- The inner nodes, in the order in which they are visited. -/
def children (schema : Schema ν) : List ν :=
  schema.properties.map Prod.snd ++ schema.items.toList ++ schema.allOf ++ schema.oneOf
    ++ schema.anyOf ++ (schema.additional.bind Additional.node?).toList

/-- The property names in the order of the output: the order given, else ascending. -/
def orderedNames (schema : Schema ν) : List String :=
  if schema.order.isEmpty then sortedNames (Entries.keys schema.properties) else schema.order

/-- The word for the type, or `otherwise` when there is none. -/
def typeName (schema : Schema ν) (otherwise : String) : String :=
  (schema.type.map SchemaType.name).getD otherwise

theorem children_map (f : ν → μ) (schema : Schema ν) :
    (schema.map f).children = schema.children.map f := by
  rcases schema with ⟨_, _, _, _, _, items, _, _, _, additional, _⟩
  rcases items with _ | _ <;> rcases additional with _ | _ | _ <;>
    simp [children, map, Additional.map, Additional.node?, Function.comp_def]

end Schema

namespace Node

variable {β : Type}

mutual

/-- The value of a node, computed from the values of the nodes inside it. -/
def fold (reference : Reference → β) (schema : Schema β → β) : Node → β
  | .ref r => reference r
  | .inline ⟨type, format, description, properties, order, items, allOf, oneOf, anyOf, additional,
      values⟩ =>
    schema {
      type, format, description, order, values
      properties := foldEntries reference schema properties
      items := foldOption reference schema items
      allOf := foldList reference schema allOf
      oneOf := foldList reference schema oneOf
      anyOf := foldList reference schema anyOf
      additional := foldAdditional reference schema additional }

/-- `fold` on named nodes. -/
def foldEntries (reference : Reference → β) (schema : Schema β → β) :
    List (String × Node) → List (String × β)
  | [] => []
  | (name, node) :: rest =>
    (name, node.fold reference schema) :: foldEntries reference schema rest

/-- `fold` on a list of nodes. -/
def foldList (reference : Reference → β) (schema : Schema β → β) : List Node → List β
  | [] => []
  | node :: rest => node.fold reference schema :: foldList reference schema rest

/-- `fold` on a node that may be missing. -/
def foldOption (reference : Reference → β) (schema : Schema β → β) : Option Node → Option β
  | none => none
  | some node => some (node.fold reference schema)

/-- `fold` on the node of further properties. -/
def foldAdditional (reference : Reference → β) (schema : Schema β → β) :
    Option (Additional Node) → Option (Additional β)
  | none => none
  | some (.flag value) => some (.flag value)
  | some (.node node) => some (.node (node.fold reference schema))

end

variable (onReference : Reference → β) (onSchema : Schema β → β)

theorem foldEntries_eq_map (entries : List (String × Node)) :
    foldEntries onReference onSchema entries
      = entries.map fun entry => (entry.1, entry.2.fold onReference onSchema) := by
  induction entries with
  | nil => rfl
  | cons head rest induction => simp [foldEntries, induction]

theorem foldList_eq_map (nodes : List Node) :
    foldList onReference onSchema nodes = nodes.map (fold onReference onSchema) := by
  induction nodes with
  | nil => rfl
  | cons head rest induction => simp [foldList, induction]

theorem foldOption_eq_map (node : Option Node) :
    foldOption onReference onSchema node = node.map (fold onReference onSchema) := by
  cases node <;> rfl

theorem foldAdditional_eq_map (additional : Option (Additional Node)) :
    foldAdditional onReference onSchema additional
      = additional.map (·.map (fold onReference onSchema)) := by
  rcases additional with _ | _ | _ <;> rfl

@[simp] theorem fold_ref (reference : Reference) :
    (Node.ref reference).fold onReference onSchema = onReference reference := by
  simp [fold]

@[simp] theorem fold_inline (schema : Schema Node) :
    (Node.inline schema).fold onReference onSchema
      = onSchema (schema.map (fold onReference onSchema)) := by
  cases schema
  simp [fold, Schema.map, foldEntries_eq_map, foldList_eq_map, foldOption_eq_map,
    foldAdditional_eq_map]

/-- The references of a node, in the order in which they are visited. -/
def references : Node → List Reference :=
  fold (fun reference => [reference]) fun schema => schema.children.flatten

/-- Changes the references of a node and nothing else. -/
def mapReferences (f : Reference → Reference) : Node → Node :=
  fold (fun reference => .ref (f reference)) .inline

/-- The number of nodes in a node, itself included. -/
def size : Node → Nat :=
  fold (fun _ => 1) fun schema => 1 + schema.children.foldr (· + ·) 0

/-- The inline schema of a node. -/
def schema? : Node → Option (Schema Node)
  | .ref _ => none
  | .inline schema => some schema

/-- The description of a node. -/
def description : Node → Option String
  | .ref reference => reference.description
  | .inline schema => schema.description

/-- The node reached from a node down a chain of properties. References are not followed. -/
def descend : Node → List String → Option Node
  | node, [] => some node
  | .ref _, _ :: _ => none
  | .inline schema, property :: rest =>
    match Entries.get? schema.properties property with
    | none => none
    | some child => child.descend rest

@[simp] theorem references_ref (reference : Reference) :
    (Node.ref reference).references = [reference] := by
  simp [references]

@[simp] theorem references_inline (schema : Schema Node) :
    (Node.inline schema).references = schema.children.flatMap references := by
  simp [references, Schema.children_map, List.flatMap_def]

@[simp] theorem mapReferences_ref (f : Reference → Reference) (reference : Reference) :
    (Node.ref reference).mapReferences f = .ref (f reference) := by
  simp [mapReferences]

@[simp] theorem mapReferences_inline (f : Reference → Reference) (schema : Schema Node) :
    (Node.inline schema).mapReferences f = .inline (schema.map (mapReferences f)) := by
  simp [mapReferences]

end Node

end Protoschema
