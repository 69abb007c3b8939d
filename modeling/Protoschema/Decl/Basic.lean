import Protoschema.Ident
/-!
Declarations: what a schema becomes in the output. Messages, unions and enums are declared by name;
a type name, a map and a list are only used in the type of a field. A message owns the declarations
that its fields need, and its fields link to them by name.
-/

namespace Protoschema

/-- An enum: its values in order, numbered from zero. -/
structure Enum where
  name : String
  values : List String
  /-- What every value carries in front. -/
  lead : Option String := none
  comment : Option String := none
deriving DecidableEq, Repr

/-- A field whose type is a `δ`. -/
structure Field (δ : Type) where
  name : String
  number : Nat
  type : δ
  comment : Option String := none
deriving Repr

/-- A message that owns declarations of type `δ`. -/
structure Message (δ : Type) where
  name : String
  nested : List δ := []
  fields : List (Field δ) := []
  comment : Option String := none
deriving Repr

/-- A declaration, or the type of a field. -/
inductive Decl
  /-- A type by its name: a scalar, or a link to a declaration. -/
  | named (name : String)
  | enum (body : Enum)
  /-- A map from keys to values. -/
  | map (name key : String) (value : Decl)
  /-- A list of items. -/
  | repeated (item : Decl)
  | message (body : Message Decl)
  /-- A message whose fields exclude each other. -/
  | union (body : Message Decl)
deriving Repr

instance : Inhabited Decl := ⟨.named ""⟩

namespace Decl

/-- The name of a declaration, or of a type as a field has it. -/
def name : Decl → String
  | .named name => name
  | .enum body => body.name
  | .map _ key value => "map<" ++ key ++ ", " ++ value.name ++ ">"
  | .repeated item => item.name
  | .message body => body.name
  | .union body => body.name

/-- Whether this is a list. -/
def isRepeated : Decl → Bool
  | .repeated _ => true
  | _ => false

/-- Whether this is declared by name in the output. -/
def isDeclaration : Decl → Bool
  | .enum _ | .message _ | .union _ => true
  | _ => false

/-- The identifier under which a declaration is emitted. -/
def ident (decl : Decl) : String :=
  Ident.normalize decl.name

/-- What a field keeps of a type: declarations are replaced by links to them. -/
def link : Decl → Decl
  | .named name => .named name
  | .enum body => .named (Ident.normalize body.name)
  | .map name key value => .map name key value.link
  | .repeated item => .repeated item.link
  | .message body => .named (Ident.normalize body.name)
  | .union body => .named (Ident.normalize body.name)

/-- The declarations in a type, which whoever has a field of it owns. -/
def owned : Decl → List Decl
  | .named _ => []
  | .enum body => [.enum body]
  | .map _ _ value => value.owned
  | .repeated item => item.owned
  | .message body => [.message body]
  | .union body => [.union body]

end Decl

namespace Message

/-- The number of the next field. -/
def nextNumber {δ : Type} (message : Message δ) : Nat :=
  message.fields.length + 1

/-- Whether a field of the same identifier is there already. -/
def hasField {δ : Type} (message : Message δ) (name : String) : Bool :=
  message.fields.any fun field => Ident.normalize field.name == Ident.normalize name

/-- Adds a field under the next number. The message takes over the declarations in its type. -/
def addField (message : Message Decl) (name : String) (type : Decl) (comment : Option String) :
    Message Decl :=
  { message with
    nested := message.nested ++ type.owned
    fields := message.fields ++ [⟨name, message.nextNumber, type.link, comment⟩] }

end Message

/-- Puts a list or a map into a message with a single field; all else is left alone. -/
def Decl.boxed (name : String) (comment : Option String) : Decl → Decl
  | .repeated item =>
    .message (Message.addField ⟨name ++ "Array", [], [], comment⟩ "Items" (.repeated item) none)
  | .map label key value =>
    .message (Message.addField ⟨name ++ "Map", [], [], comment⟩ "Entries" (.map label key value)
      none)
  | decl => decl

end Protoschema
