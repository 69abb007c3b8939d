import Protoschema.Files.Path
import Protoschema.Pointer
/-!
References between schemas, and what a reference is bound to: a place in the same document, or a
name in the package of another document.
-/

namespace Protoschema

/-- A place among a document's schemas: a top-level name and a chain of property names below it. -/
structure Location where
  root : String
  properties : List String := []
deriving DecidableEq, Repr

namespace Location

/-- The place of a property below a place. -/
def child (location : Location) (property : String) : Location :=
  { location with properties := location.properties ++ [property] }

/-- The pointer that addresses a place. -/
def pointer (location : Location) : String :=
  Pointer.ofLocation location.root location.properties

end Location

/-- What a reference is bound to. -/
inductive Binding
  /-- A schema of the same document: the name of its declaration, and where it stands. -/
  | here (name : String) (target : Location)
  /-- A schema of another document: its package, its name there, and the file to import. -/
  | elsewhere (package name importPath : String)
deriving DecidableEq, Repr

/-- A reference: the pointer, its own description, the package given for an external pointer, and
the binding once there is one. -/
structure Reference where
  pointer : String
  description : Option String := none
  package : Option String := none
  binding : Option Binding := none
deriving DecidableEq, Repr

/-- Drops every leading `./`. -/
def dropHere : List Char → List Char
  | '.' :: '/' :: rest => dropHere rest
  | cs => cs

namespace Reference

/-- The binding of a pointer into another document: the package is the one given, or else named
after the document's file; the import is that file with the extension `proto`. -/
def externalBinding? (reference : Reference) : Option Binding :=
  if Pointer.isExternal reference.pointer then
    let document := String.ofList (dropHere (Pointer.split reference.pointer).1.toList)
    let stem := (Path.stem? document).getD document
    let package := reference.package.getD (Ident.normalize stem)
    some (.elsewhere package (Pointer.lastName reference.pointer)
      (Path.withExtension document "proto"))
  else none

end Reference

end Protoschema
