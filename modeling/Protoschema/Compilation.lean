import Protoschema.Binding
import Protoschema.Decl.OfNode
import Protoschema.Proto
/-!
Compiling a document: its references are bound, the selected schemas are declared in ascending order
of their names, and what they yield is gathered. In strict mode the first schema that cannot be
declared is the outcome; in lenient mode it is reported and left out. A schema whose declaring has
no end is the last in either mode.
-/

namespace Protoschema

/-- Whether an error is the outcome of the whole compilation. In lenient mode only that of a
declaring without an end is, for there nothing comes back that could be reported. -/
def RunMode.endsWith (mode : RunMode) (error : SchemaError) : Bool :=
  mode == .strict || error.isOutOfSteps

/-- A compiled document. -/
structure Compilation where
  declarations : List Decl := []
  imports : Imports := {}
  diagnostics : List Diagnostic := []
  failures : List SchemaError := []
deriving Repr, Inhabited

namespace Compilation

/-- Adds the outcome of a schema. -/
def add (compilation : Compilation) (name : String) : Except SchemaError Declared → Compilation
  | .ok declared =>
    { compilation with
      declarations := compilation.declarations ++ [declared.decl]
      imports := compilation.imports.merge declared.imports
      diagnostics := compilation.diagnostics ++ declared.warnings }
  | .error error =>
    { compilation with
      diagnostics := compilation.diagnostics ++ [⟨.error, name, error.message⟩]
      failures := compilation.failures ++ [error] }

/-- Adds the outcomes of schemas, one after the other, up to an error that the mode ends with. -/
def gather (mode : RunMode) :
    Compilation → List (String × Except SchemaError Declared) → Except SchemaError Compilation
  | compilation, [] => .ok compilation
  | compilation, (name, .ok declared) :: rest =>
    gather mode (compilation.add name (.ok declared)) rest
  | compilation, (name, .error error) :: rest =>
    if mode.endsWith error then .error error
    else gather mode (compilation.add name (.error error)) rest

/-- The text of the compiled file. -/
def text (compilation : Compilation) (options : Options) : String :=
  Proto.header options.package options.optionLines compilation.imports.paths
    ++ Proto.body compilation.declarations

end Compilation

namespace Document

/-- The schemas that are compiled, in ascending order of their names. -/
def selected (document : Document) (only : Option (List String)) : List String :=
  match only with
  | none => sortedNames document.names
  | some names => sortedNames (names.filter document.schemas.has).eraseDups

/-- The selected schemas with what becomes of each. -/
def outcomes (document : Document) (options : Options) :
    List (String × Except SchemaError Declared) :=
  (document.selected options.only).filterMap fun name =>
    (document.declareSchema options name).map fun outcome => (name, outcome)

/-- Compiles a document whose references have been bound. -/
def compileBound (document : Document) (options : Options) (diagnostics : List Diagnostic) :
    Except SchemaError Compilation :=
  Compilation.gather options.mode { diagnostics } (document.outcomes options)

/-- Binds the references of a document and compiles it. The document comes back with its bindings,
whatever the outcome. -/
def compile (document : Document) (options : Options) :
    Document × Except SchemaError Compilation :=
  let (bound, report) := document.bind options.only
  (bound, bound.compileBound options report.diagnostics)

end Document

end Protoschema
