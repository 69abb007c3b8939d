import Protoschema.Proofs.FieldNumbering
/-!
The fields of properties. A field links to what the node of its property becomes, and what that owns
is nested in the message. The properties of an object that have fields are those in order, less the
ones whose identifier came up before.
-/

namespace Protoschema

namespace Run

variable {α β : Type}

theorem outcome_bind_eq_ok {run : Run α} {next : α → Run β} {value : β} :
    (run >>= next).outcome = .ok value ↔
      ∃ middle, run.outcome = .ok middle ∧ (next middle).outcome = .ok value := by
  obtain ⟨events, error | middle⟩ := run
  · simp
  · simp

end Run

/-- The names whose identifiers are new: not taken, and not that of an earlier name. -/
def freshNames (taken : List String) : List String → List String
  | [] => []
  | name :: rest =>
    if Ident.normalize name ∈ taken then freshNames taken rest
    else name :: freshNames (taken ++ [Ident.normalize name]) rest

/-- The identifiers of a message's fields. -/
def Message.idents (message : Message Decl) : List String :=
  message.fields.map fun field => Ident.normalize field.name

/-- A field of a message is that of a property: it links to what the property's node becomes, and
the message owns what there is to own. -/
structure IsFieldOf (declare : Declarer) (schema : Schema Node) (body : Message Decl)
    (property : String) (field : Field Decl) : Prop where
  name : field.name = property
  origin : ∃ node type, Entries.get? schema.properties property = some node ∧
    (declare (propertyHint body.name property) node).outcome = .ok type ∧
    field.type = type.link ∧ field.comment = node.description ∧ type.owned ⊆ body.nested

/-- The properties that become fields of an object: those in order, less the ones whose identifier
came up before. -/
def Schema.fieldNames (schema : Schema Node) : List String :=
  freshNames [] schema.orderedNames

end Protoschema
