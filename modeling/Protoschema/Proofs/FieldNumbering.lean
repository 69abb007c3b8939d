import Mathlib.Data.List.Nodup
import Protoschema.Proofs.Invariants
/-!
The fields of declarations. However a message comes about, from an object, from the members of a
composition, from the alternatives of a union or by boxing, its fields are numbered from one without
gaps, and no two of them have the same identifier.
-/

namespace Protoschema

/-- Fields that are numbered from one on and have distinct identifiers. -/
structure Message.Numbered (body : Message Decl) : Prop where
  numbers : body.fields.map Field.number = List.range' 1 body.fields.length
  names : (body.fields.map fun field => Ident.normalize field.name).Nodup

theorem Message.hasField_eq_false {body : Message Decl} {name : String} :
    body.hasField name = false ↔
      Ident.normalize name ∉ body.fields.map fun field => Ident.normalize field.name := by
  simp [Message.hasField]

/-- A new field takes the next number, and a name that is free. -/
theorem Message.Numbered.addField {body : Message Decl} (numbered : body.Numbered) {name : String}
    (free : body.hasField name = false) (type : Decl) (comment : Option String) :
    (body.addField name type comment).Numbered where
  numbers := by
    simp only [Message.addField, List.map_append, List.map_cons, List.map_nil, List.length_append,
      List.length_singleton, numbered.numbers, Message.nextNumber]
    rw [List.range'_1_concat, Nat.add_comm]
  names := by
    simp only [Message.addField, List.map_append, List.map_cons, List.map_nil]
    refine List.Nodup.append numbered.names (List.nodup_singleton _) ?_
    exact List.disjoint_singleton.mpr (Message.hasField_eq_false.mp free)

/-- Numbering is kept by every new field. -/
def fieldNumbering : FieldInvariant where
  holds := Message.Numbered
  empty _ _ := ⟨rfl, List.nodup_nil⟩
  grows _ _ type comment numbered free := numbered.addField free type comment

/-- In every message and union of a declared schema, at any depth, the fields are numbered one, two,
three and so on in their order, and their identifiers are distinct. -/
theorem Document.fields_numbered (document : Document) (options : Options) (name : String)
    (declared : Declared) (compiled : document.declareSchema options name = some (.ok declared))
    (body : Message Decl) (contains : declared.decl.Contains body) :
    body.fields.map Field.number = List.range' 1 body.fields.length ∧
      (body.fields.map fun field => Ident.normalize field.name).Nodup := by
  have numbered : body.Numbered := fieldNumbering.of_contains compiled contains
  exact ⟨numbered.numbers, numbered.names⟩

/-- An object with one property in two spellings, and a list of lists. -/
def grid : Document where
  schemas := [("Grid", .inline {
    type := some .object
    order := ["row-id", "row_id", "cells"]
    properties := [
      ("row-id", .inline { type := some .integer }),
      ("row_id", .inline { type := some .string }),
      ("cells", .inline {
        type := some .array
        items := some (.inline {
          type := some .array
          items := some (.inline { type := some .string }) }) })] })]

/-- What it becomes: the second spelling is left out, and the inner list is boxed. -/
def gridDeclared : Declared where
  decl := .message {
    name := "Grid"
    nested := [.message {
      name := "Grid_cellsElemArray"
      fields := [⟨"Items", 1, .repeated (.named "string"), none⟩] }]
    fields := [
      ⟨"row-id", 1, .named "int32", none⟩,
      ⟨"cells", 2, .repeated (.named "Grid_cellsElemArray"), none⟩] }
  imports := {}
  warnings := [⟨.warning, "Grid", "Grid: duplicate field `row_id`, keeping the first"⟩]

theorem Document.fields_numbered_grid :
    grid.declareSchema {} "Grid" = some (.ok gridDeclared) ∧
    ∃ body, gridDeclared.decl.Contains body ∧ body.fields.length = 2 ∧
      body.fields.map Field.number = List.range' 1 2 ∧
      (body.fields.map fun field => Ident.normalize field.name).Nodup := by
  have compiled : grid.declareSchema {} "Grid" = some (.ok gridDeclared) := by rfl
  exact ⟨compiled, _, .inl .self, rfl,
    fields_numbered grid {} "Grid" gridDeclared compiled _ (.inl .self)⟩

end Protoschema
