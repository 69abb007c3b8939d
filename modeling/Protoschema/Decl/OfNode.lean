import Protoschema.Decl.Basic
import Protoschema.Decl.Run
import Protoschema.Decl.Shape
import Protoschema.Document
import Protoschema.Imports
import Protoschema.Options
/-!
Declaring a node. A node becomes a declaration under a hint, the name that its place suggests; what
it holds is declared under hints made from its own. References to what has a declaration are linked
by name, all others are followed to what they stand for; a reference that comes up again while it is
being followed is an error. The functions here say what one level does, given how the level below is
declared, and `declareWithin` ties them together.
-/

namespace Protoschema

/-- What declaring depends on. -/
structure Scope where
  document : Document
  options : Options

/-- Declares a node under a hint. -/
abbrev Declarer := String → Node → Run Decl

/-- The hint for the alternatives of a union. -/
def alternativeHint : String := "Variant"

/-- The hint for the items of a list and the values of a map. -/
def elementHint (hint : String) : String := hint ++ "Elem"

/-! ### References -/

/-- What a reference that is not bound is taken for: the name at the end of its pointer. -/
def guess (reference : Reference) : Run Decl := do
  Run.note (.guessed reference.pointer)
  return .named (Ident.normalize (Pointer.lastName reference.pointer))

/-- Declares what a reference stands for. `following` holds the pointers that are being followed. -/
def declareReference (scope : Scope) (declare : List String → Declarer) (following : List String)
    (hint : String) (reference : Reference) : Run Decl :=
  match reference.binding with
  | some (.elsewhere package name importPath) => do
    Run.note (.imported package importPath)
    return .named (scope.options.packageName package ++ "." ++ Ident.normalize name)
  | some (.here name target) =>
    match scope.document.lookup target with
    | none => guess reference
    | some node =>
      if (Shape.of node).declares then do
        Run.note (.linked name target)
        return .named name
      else if reference.pointer ∈ following then
        Run.fail (.cyclicReference hint reference.pointer)
      else declare (reference.pointer :: following) hint node
  | none => guess reference

/-! ### Lists and maps -/

/-- A list of what its items are; an item that is a list or a map is boxed. -/
def declareArray (declare : Declarer) (hint : String) (schema : Schema Node) : Run Decl :=
  match schema.items with
  | none => Run.fail (.missingItems hint)
  | some items => do
    let item ← declare (elementHint hint) items
    return .repeated (item.boxed (elementHint hint) none)

/-- A map from strings to what its values are; a value that is a list or a map is boxed. -/
def declareOpenMap (declare : Declarer) (hint : String) (schema : Schema Node)
    (additional : Additional Node) : Run Decl :=
  if schema.type ≠ some .object then
    Run.fail (.invalidOpenMap hint
      ("schema must be an object, found " ++ schema.typeName "no type"))
  else
    match additional with
    | .flag value =>
      Run.fail (.invalidOpenMap hint
        ("`" ++ (if value then "true" else "false") ++ "` carries no value schema"))
    | .node node => do
      if schema.properties ≠ [] then
        Run.note (.warned (hint ++ ": properties next to additionalProperties are ignored"))
      let value ← declare (elementHint hint) node
      return .map hint "string" (value.boxed (elementHint hint) none)

/-! ### Enums -/

/-- The texts among the values of an enum. Nulls are left out; anything else is an error. -/
def enumTexts : List Json.Value → Except String (List String)
  | [] => .ok []
  | .text value :: rest => (enumTexts rest).map (value :: ·)
  | .null :: rest => enumTexts rest
  | other :: _ => .error ("value " ++ other.compact ++ " is not a string")

/-- The upper-case name that enum values carry in front. An identifier has ASCII letters only. -/
def enumLead (hint : String) : String :=
  String.ofList ((Ident.normalize hint).toList.map Char.toUpper) ++ "_"

/-- An enum of strings. -/
def declareEnum (options : Options) (hint : String) (schema : Schema Node)
    (values : List Json.Value) : Run Decl :=
  if schema.type ≠ some .string then
    Run.fail (.invalidEnum hint ("type must be string, found " ++ schema.typeName "no type"))
  else
    match enumTexts values with
    | .error reason => Run.fail (.invalidEnum hint reason)
    | .ok [] => Run.fail (.invalidEnum hint "no values")
    | .ok texts =>
      return .enum {
        name := hint
        values := texts
        lead := if options.enumPrefix then some (enumLead hint) else none
        comment := schema.description }

/-! ### Objects -/

/-- The hint for a property of an object. -/
def propertyHint (hint property : String) : String := hint ++ "_" ++ property

/-- Adds the field of a property, declared under the message's name and its own. A property whose
identifier is taken is left out with a warning. -/
def addProperty (declare : Declarer) (schema : Schema Node) (message : Message Decl)
    (property : String) : Run (Message Decl) :=
  match Entries.get? schema.properties property with
  | none => Run.fail (.unknownOrderedProperty message.name property)
  | some node =>
    if message.hasField property then do
      Run.note (.warned
        (message.name ++ ": duplicate field `" ++ property ++ "`, keeping the first"))
      return message
    else do
      let type ← declare (propertyHint message.name property) node
      return message.addField property type node.description

/-- The properties that a given order does not name. -/
def unordered (schema : Schema Node) : List String :=
  if schema.order.isEmpty then []
  else (Entries.keys schema.properties).filter fun property => property ∉ schema.order

/-- Adds the fields of an object's properties, in their order. -/
def addProperties (declare : Declarer) (message : Message Decl) (schema : Schema Node) :
    Run (Message Decl) := do
  (unordered schema).forM fun property =>
    Run.note (.warned
      (message.name ++ ": `" ++ property ++ "` is not in x-properties-order, skipped"))
  schema.orderedNames.foldlM (addProperty declare schema) message

/-- The message of an object. -/
def declareObject (declare : Declarer) (hint : String) (schema : Schema Node) :
    Run (Message Decl) :=
  addProperties declare { name := hint, comment := schema.description } schema

/-! ### Compositions -/

/-- Pointers but for one of them. -/
def without (pointers : List String) (pointer : String) : List String :=
  pointers.filter (· ≠ pointer)

theorem length_without_lt {pointers : List String} {pointer : String}
    (member : pointer ∈ pointers) : (without pointers pointer).length < pointers.length :=
  List.length_filter_lt_length_iff_exists.mpr ⟨pointer, member, by simp⟩

/-- The object that a member of a composition stands for. Each pointer can be passed once: `fresh`
holds those that have not been passed. -/
def memberObject (document : Document) (hint : String) (position : Nat) (fresh : List String)
    (node : Node) : Except SchemaError (Schema Node) :=
  match node with
  | .inline schema =>
    if schema.type = some .object then .ok schema
    else
      .error (.invalidMember hint position
        ("is " ++ schema.typeName "untyped" ++ ", not an object"))
  | .ref reference =>
    if _unpassed : reference.pointer ∈ fresh then
      match reference.binding with
      | some (.here _ target) =>
        match document.lookup target with
        | some next =>
          memberObject document hint position (without fresh reference.pointer) next
        | none => .error (.unresolvedReference hint reference.pointer)
      | some (.elsewhere _ _ _) =>
        .error (.invalidMember hint position
          ("`" ++ reference.pointer ++ "` lives in another document"))
      | none => .error (.unresolvedReference hint reference.pointer)
    else .error (.cyclicReference hint reference.pointer)
termination_by fresh.length
decreasing_by exact length_without_lt _unpassed

/-- The pointers that can come up on the way from a node: its own and those of the document. -/
def freshPointers (document : Document) (node : Node) : List String :=
  (node.references ++ document.references).map Reference.pointer

/-- Adds the fields of a composition's member; positions count from one. -/
def addMember (scope : Scope) (declare : Declarer) (hint : String) (message : Message Decl)
    (member : Node × Nat) : Run (Message Decl) := do
  let object ← Run.ofExcept <|
    memberObject scope.document hint (member.2 + 1) (freshPointers scope.document member.1) member.1
  addProperties declare message object

/-- The message of a composition: the fields of all its members, numbered on. -/
def declareComposition (scope : Scope) (declare : Declarer) (hint : String)
    (schema : Schema Node) : Run (Message Decl) :=
  schema.allOf.zipIdx.foldlM (addMember scope declare hint)
    { name := hint, comment := schema.description }

/-! ### Unions -/

/-- Adds the field of an alternative, named after its type. -/
def addAlternative (declare : Declarer) (hint : String) (message : Message Decl)
    (alternative : Node) : Run (Message Decl) := do
  let type ← declare alternativeHint alternative
  let boxed := type.boxed alternativeHint none
  let field := Ident.unqualified boxed.name ++ "Value"
  if message.hasField field then Run.fail (.duplicateAlternative hint field)
  else return message.addField field boxed alternative.description

/-- The message of a union: one field for each alternative. -/
def declareUnion (declare : Declarer) (hint : String) (schema : Schema Node) :
    Run (Message Decl) :=
  schema.oneOf.foldlM (addAlternative declare hint)
    { name := hint, comment := schema.description }

/-! ### All shapes -/

/-- Declares a node by its shape, given how the nodes that it leads to are declared while some
pointers are being followed. -/
def declareShape (scope : Scope) (declare : List String → Declarer) (following : List String)
    (hint : String) (node : Node) : Run Decl :=
  match Shape.of node with
  | .link reference => declareReference scope declare following hint reference
  | .union schema => .union <$> declareUnion (declare following) hint schema
  | .composition schema => .message <$> declareComposition scope (declare following) hint schema
  | .openMap schema additional => declareOpenMap (declare following) hint schema additional
  | .object schema => .message <$> declareObject (declare following) hint schema
  | .array schema => declareArray (declare following) hint schema
  | .enum schema values => declareEnum scope.options hint schema values
  | .scalar schema =>
    match schema.scalar? with
    | some name => return .named name
    | none => Run.fail (.untypedSchema hint)

/-- Declares a node within a number of nested steps. -/
def declareWithin (scope : Scope) : Nat → List String → Declarer
  | 0, _, hint, _ => Run.fail (.endlessComposition hint)
  | steps + 1, following, hint, node =>
    declareShape scope (declareWithin scope steps) following hint node

/-- Enough nested steps for every node that can be declared at all: between two steps the pointers
not being followed grow fewer, or the compositions not being expanded do, or the node gets smaller,
and there are no more of each than nodes. -/
def stepBudget (document : Document) (node : Node) : Nat :=
  let bound := document.size + node.size + 1
  bound * bound * bound

/-- Declares a node of a document under a hint. -/
def declare (scope : Scope) (hint : String) (node : Node) : Run Decl :=
  declareWithin scope (stepBudget scope.document node) [] hint node

/-! ### Top-level schemas -/

/-- A top-level schema that has been declared. -/
structure Declared where
  decl : Decl
  imports : Imports
  warnings : List Diagnostic
deriving Repr

/-- What cannot stand alone in the output. -/
def Decl.loose? : Decl → Option LooseShape
  | .repeated _ => some .array
  | .map _ _ _ => some .openMap
  | _ => none

/-- Declares a top-level node: a list or a map is boxed, or refused if boxing is off. -/
def declareTopLevel (scope : Scope) (name : String) (node : Node) : Run Decl := do
  let decl ← declare scope name node
  match decl.loose? with
  | some shape =>
    if scope.options.boxTopLevel then return decl.boxed name node.description
    else Run.fail (.unboxedTopLevel name shape)
  | none => return decl

/-- What a run for a top-level schema hands on. -/
def Run.declared (run : Run Decl) (name : String) : Except SchemaError Declared :=
  run.outcome.map fun decl =>
    { decl
      imports := Imports.recordAll {} run.uses
      warnings := run.warnings.map fun message => ⟨.warning, name, message⟩ }

/-- The top-level schema of a name, declared; none if there is no such schema. -/
def Document.declareSchema (document : Document) (options : Options) (name : String) :
    Option (Except SchemaError Declared) :=
  (document.schema? name).map fun node =>
    (declareTopLevel ⟨document, options⟩ name node).declared name

end Protoschema
