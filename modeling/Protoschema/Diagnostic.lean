/-!
What a run reports of a schema, and the reasons for which a schema cannot be compiled.
-/

namespace Protoschema

/-- How serious a report is. -/
inductive Severity
  | warning
  | error
deriving DecidableEq, Repr

/-- The word for a severity. -/
def Severity.name : Severity → String
  | .warning => "warning"
  | .error => "error"

/-- A report about a top-level schema. -/
structure Diagnostic where
  severity : Severity
  schema : String
  message : String
deriving DecidableEq, Repr

/-- The text of a report. -/
def Diagnostic.text (diagnostic : Diagnostic) : String :=
  diagnostic.severity.name ++ ": [" ++ diagnostic.schema ++ "] " ++ diagnostic.message

/-- The shapes that cannot stand alone in the output. -/
inductive LooseShape
  | array
  | openMap
deriving DecidableEq, Repr

/-- The word for such a shape. -/
def LooseShape.name : LooseShape → String
  | .array => "array"
  | .openMap => "open map"

/-- Why a schema cannot be compiled. `schema` is the name under which its declaration was being
made. -/
inductive SchemaError
  | unresolvedReference (schema pointer : String)
  | invalidOpenMap (schema reason : String)
  | invalidMember (schema : String) (position : Nat) (reason : String)
  | invalidEnum (schema reason : String)
  | unboxedTopLevel (schema : String) (shape : LooseShape)
  | duplicateAlternative (schema field : String)
  | missingItems (schema : String)
  | unknownOrderedProperty (schema property : String)
  | cyclicReference (schema pointer : String)
  | untypedSchema (schema : String)
  /-- A composition that takes in its own members again and again. -/
  | endlessComposition (schema : String)
deriving DecidableEq, Repr

namespace SchemaError

/-- Whether an error stands for a declaring that has no end. No schema is declared after that. -/
def isOutOfSteps : SchemaError → Bool
  | .endlessComposition _ => true
  | _ => false

/-- The wording of an error. -/
def message : SchemaError → String
  | .unresolvedReference schema pointer =>
    schema ++ ": reference `" ++ pointer ++ "` does not resolve"
  | .invalidOpenMap schema reason => schema ++ ": invalid additionalProperties: " ++ reason
  | .invalidMember schema position reason =>
    schema ++ ": allOf member #" ++ toString position ++ " " ++ reason
  | .invalidEnum schema reason => schema ++ ": invalid enum: " ++ reason
  | .unboxedTopLevel schema shape =>
    schema ++ ": top-level " ++ shape.name ++ " needs boxing, which is disabled"
  | .duplicateAlternative schema field =>
    schema ++ ": oneOf alternatives collide on field `" ++ field ++ "`"
  | .missingItems schema => schema ++ ": array has no `items`"
  | .unknownOrderedProperty schema property =>
    schema ++ ": x-properties-order names unknown property `" ++ property ++ "`"
  | .cyclicReference schema pointer => schema ++ ": reference cycle through `" ++ pointer ++ "`"
  | .untypedSchema schema =>
    schema ++ ": no `type` and no composition keyword, cannot pick a scalar"
  | .endlessComposition schema => schema ++ ": allOf takes in its own members without end"

end SchemaError

end Protoschema
