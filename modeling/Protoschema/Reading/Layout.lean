import Protoschema.Json.Value
/-!
What a document and a settings file are made of, apart from the format they are written in: records
with named members, and what is wanted in each place. A format's reader follows this layout and
yields a `Datum`, or the place and the cause of the first fault.
-/

namespace Protoschema.Reading

/-- The records of a document and of a settings file. -/
inductive Record
  | document
  | info
  | components
  | node
  | options
deriving DecidableEq, Repr

/-- What is wanted in a place. -/
inductive Want
  | text
  | flag
  | optional (want : Want)
  | listOf (want : Want)
  | mapOf (want : Want)
  | record (record : Record)
  /-- A flag, or a schema node written with its keys. -/
  | flagOrNode
  /-- Any value at all. -/
  | anything
  /-- One of the names of a run mode. -/
  | mode
deriving DecidableEq, Repr

/-- A member of a record. -/
structure Member where
  key : String
  want : Want
  /-- Whether a record written as a list may end before this member. -/
  omissible : Bool
deriving DecidableEq, Repr

namespace Record

/-- The name of a record in messages. -/
def title : Record → String
  | .document => "struct Document"
  | .info => "struct Info"
  | .components => "struct Components"
  | .node => "struct Node"
  | .options => "struct GenerationOptions"

/-- The members of a record, in the order of their positions in a list. -/
def members : Record → List Member
  | .document => [
      ⟨"openapi", .optional .text, true⟩,
      ⟨"info", .optional (.record .info), true⟩,
      ⟨"components", .record .components, true⟩]
  | .info => [
      ⟨"title", .optional .text, true⟩,
      ⟨"version", .optional .text, true⟩]
  | .components => [⟨"schemas", .mapOf (.record .node), true⟩]
  | .node => [
      ⟨"$ref", .optional .text, false⟩,
      ⟨"x-package", .optional .text, false⟩,
      ⟨"type", .optional .text, false⟩,
      ⟨"format", .optional .text, false⟩,
      ⟨"description", .optional .text, false⟩,
      ⟨"properties", .mapOf (.record .node), true⟩,
      ⟨"x-properties-order", .listOf .text, true⟩,
      ⟨"items", .optional (.record .node), false⟩,
      ⟨"allOf", .listOf (.record .node), true⟩,
      ⟨"oneOf", .listOf (.record .node), true⟩,
      ⟨"anyOf", .listOf (.record .node), true⟩,
      ⟨"additionalProperties", .optional .flagOrNode, false⟩,
      ⟨"enum", .optional (.listOf .anything), false⟩]
  | .options => [
      ⟨"enum-name-prefix", .flag, true⟩,
      ⟨"package-renames", .mapOf .text, true⟩,
      ⟨"node-filter", .optional (.listOf .text), true⟩,
      ⟨"raw-option-lines", .listOf .text, true⟩,
      ⟨"package", .optional .text, true⟩,
      ⟨"mode", .mode, true⟩,
      ⟨"box-top-level", .flag, true⟩]

/-- Whether a record takes no members but its own. -/
def isClosed : Record → Bool
  | .options => true
  | _ => false

/-- The member under a key. -/
def member? (record : Record) (key : String) : Option Member :=
  record.members.find? (·.key == key)

end Record

/-- The names of the run modes. -/
def modeNames : List String := ["strict", "lenient"]

/-- What is wanted, in the words of a message. -/
def Want.title : Want → String
  | .text => "a string"
  | .flag => "a boolean"
  | .optional want => want.title
  | .listOf _ => "a sequence"
  | .mapOf _ => "a map"
  | .record which => which.title
  | .flagOrNode => "a boolean or a schema"
  | .anything => "any valid JSON value"
  | .mode => "enum RunMode"

/-- Whether nothing, written as null, may stand in a place. -/
def Want.isOptional : Want → Bool
  | .optional _ => true
  | _ => false

/-- What is wanted in a place if there is anything. -/
def Want.core : Want → Want
  | .optional want => want.core
  | want => want

/-- What has been read, in the shape of the layout. A record has one datum for each of its members,
in their order. -/
inductive Datum
  | absent
  | text (value : String)
  | flag (value : Bool)
  | list (items : List Datum)
  | map (entries : List (String × Datum))
  | record (members : List Datum)
  | any (value : Json.Value)
deriving Repr, Inhabited

/-- One step from a value to a value inside it. -/
inductive Step
  | key (name : String)
  | index (position : Nat)
  /-- A key that could not be read. -/
  | unknown
deriving DecidableEq, Repr

/-- The steps from the root to a place. -/
abbrev Place := List Step

namespace Place

/-- Adds a step to the text of the steps before it; `first` at the root. -/
def append (text : String) (first : Bool) : Step → String
  | .key name => if first then text ++ name else text ++ "." ++ name
  | .index position => text ++ "[" ++ toString position ++ "]"
  | .unknown => if first then text ++ "?" else text ++ ".?"

/-- The text of the steps behind those already written. -/
def render (text : String) (first : Bool) : Place → String
  | [] => text
  | step :: rest => render (append text first step) false rest

/-- The text of a place: keys with dots between them, positions in brackets, and a dot for the root
itself. -/
def text (place : Place) : String :=
  if place.isEmpty then "." else render "" true place

end Place

/-- A list of names as messages quote them. -/
def quotedNames (names : List String) : List String :=
  names.map fun name => "`" ++ name ++ "`"

/-- Why a value cannot be read. -/
inductive Cause
  /-- The text breaks a rule of its format. -/
  | malformed (message : String)
  /-- Something else stands where this is wanted. -/
  | wrongType (found wanted : String)
  /-- A text that does not mean what its tag says. -/
  | wrongValue (found wanted : String)
  | duplicateMember (key : String)
  | unknownMember (key : String) (known : List String)
  | unknownMode (name : String)
  /-- A record written as a list ends before a member that it must have. -/
  | tooShort (length : Nat) (wanted : String) (size : Nat)
  | numberOutOfRange
deriving DecidableEq, Repr

namespace Cause

/-- The wording of a cause. -/
def message : Cause → String
  | .malformed message => message
  | .wrongType found wanted => "invalid type: " ++ found ++ ", expected " ++ wanted
  | .wrongValue found wanted => "invalid value: " ++ found ++ ", expected " ++ wanted
  | .duplicateMember key => "duplicate field `" ++ key ++ "`"
  | .unknownMember key known =>
    "unknown field `" ++ key ++ "`, expected one of " ++ ", ".intercalate (quotedNames known)
  | .unknownMode name =>
    "unknown variant `" ++ name ++ "`, expected " ++ " or ".intercalate (quotedNames modeNames)
  | .tooShort length wanted size =>
    "invalid length " ++ toString length ++ ", expected " ++ wanted ++ " with " ++ toString size
      ++ " elements"
  | .numberOutOfRange => "JSON number out of range"

end Cause

/-- A fault: where it was met, its cause, and the place that its message names as well. -/
structure Fault where
  place : Place
  cause : Cause
  within : Place := []
deriving DecidableEq, Repr

/-- The message of a fault. The root, which is written as a dot, is not named. -/
def Fault.message (fault : Fault) : String :=
  if fault.within.text = "." then fault.cause.message
  else fault.within.text ++ ": " ++ fault.cause.message

/-- The members read so far, put in the order of the record. -/
def Record.datum (record : Record) (read : List (String × Datum)) : Datum :=
  .record (record.members.map fun member => (read.lookup member.key).getD .absent)

end Protoschema.Reading
