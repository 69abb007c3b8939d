import Protoschema.Document
import Protoschema.Json.Read
import Protoschema.Options
import Protoschema.Yaml.Read
/-!
Documents and settings from what has been read, and from a text in one of the two formats.
-/

namespace Protoschema

/-- The formats of a source text. -/
inductive Format
  | json
  | yaml
deriving DecidableEq, Repr

/-- The format of a file: JSON if the extension says so, in letters of either case, else YAML. -/
def Format.ofPath (path : Path) : Format :=
  match path.extension? with
  | some extension => if extension.toList.map Char.toLower = "json".toList then .json else .yaml
  | none => .yaml

namespace Reading.Datum

/-- The text, if there is one. -/
def text? : Datum → Option String
  | .text value => some value
  | _ => none

/-- The flag, or else the given one. -/
def flagOr (otherwise : Bool) : Datum → Bool
  | .flag value => value
  | _ => otherwise

/-- The items of a list. -/
def items : Datum → List Datum
  | .list items => items
  | _ => []

/-- The texts of a list. -/
def texts (datum : Datum) : List String :=
  datum.items.filterMap text?

/-- The texts of a map. -/
def textEntries : Datum → List (String × String)
  | .map entries => entries.filterMap fun entry => entry.2.text?.map (entry.1, ·)
  | _ => []

/-- The values of a list. -/
def values? : Datum → Option (List Json.Value)
  | .list items => some <| items.filterMap fun item =>
    match item with
    | .any value => some value
    | _ => none
  | _ => none

end Reading.Datum

open Reading (Datum)

/-- A node from the keywords beside its inner nodes: a pointer makes it a reference. -/
def Node.ofKeywords (pointer package : Datum) (schema : Schema Node) : Node :=
  match pointer.text? with
  | some pointer =>
    .ref { pointer, description := schema.description, package := package.text? }
  | none => .inline schema

mutual

/-- A node from its record. -/
def Node.ofDatum : Datum → Node
  | .record [pointer, package, type, format, description, properties, order, items, allOf, oneOf,
      anyOf, additional, values] =>
    Node.ofKeywords pointer package {
      type := type.text?.map SchemaType.ofName
      format := format.text?
      description := description.text?
      properties := Node.entriesOfDatum properties
      order := order.texts
      items := Node.optionOfDatum items
      allOf := Node.listOfDatum allOf
      oneOf := Node.listOfDatum oneOf
      anyOf := Node.listOfDatum anyOf
      additional := Node.additionalOfDatum additional
      values := values.values? }
  | _ => default

/-- A node that may be missing. -/
def Node.optionOfDatum : Datum → Option Node
  | .record members => some (Node.ofDatum (.record members))
  | _ => none

/-- What is said of further properties. -/
def Node.additionalOfDatum : Datum → Option (Additional Node)
  | .flag value => some (.flag value)
  | .record members => some (.node (Node.ofDatum (.record members)))
  | _ => none

/-- Nodes from a list. -/
def Node.listOfDatum : Datum → List Node
  | .list items => Node.ofData items
  | _ => []

/-- Named nodes from a map. -/
def Node.entriesOfDatum : Datum → List (String × Node)
  | .map entries => Node.ofEntries entries
  | _ => []

/-- Nodes from data. -/
def Node.ofData : List Datum → List Node
  | [] => []
  | datum :: rest => Node.ofDatum datum :: Node.ofData rest

/-- Named nodes from data. -/
def Node.ofEntries : List (String × Datum) → List (String × Node)
  | [] => []
  | (name, datum) :: rest => (name, Node.ofDatum datum) :: Node.ofEntries rest

end

/-- The description of a document from its record. -/
def Info.ofDatum? : Datum → Option Info
  | .record [title, version] => some ⟨title.text?, version.text?⟩
  | _ => none

/-- A document from its record. -/
def Document.ofDatum : Datum → Document
  | .record [openapi, info, .record [schemas]] =>
    { openapi := openapi.text?
      info := Info.ofDatum? info
      schemas := Node.entriesOfDatum schemas }
  | .record [openapi, info, _] => { openapi := openapi.text?, info := Info.ofDatum? info }
  | _ => default

/-- Settings from their record. -/
def Options.ofDatum : Datum → Options
  | .record [enumPrefix, renames, only, optionLines, package, mode, boxTopLevel] =>
    { enumPrefix := enumPrefix.flagOr false
      renames := renames.textEntries
      only := match only with
        | .list items => some (items.filterMap Datum.text?)
        | _ => none
      optionLines := optionLines.texts
      package := package.text?
      mode := if mode.text? = some "strict" then .strict else .lenient
      boxTopLevel := boxTopLevel.flagOr true }
  | _ => {}

/-- Reads a text as one record. -/
def Format.read (format : Format) (record : Reading.Record) (text : String) :
    Except Reading.Fault Datum :=
  match format with
  | .json => Json.read record text
  | .yaml => Yaml.read record text

/-- Reads a document. -/
def Document.ofText (format : Format) (text : String) : Except Reading.Fault Document :=
  (format.read .document text).map Document.ofDatum

/-- Reads settings. -/
def Options.ofText (format : Format) (text : String) : Except Reading.Fault Options :=
  (format.read .options text).map Options.ofDatum

/-- Reads a schema node. -/
def Node.ofText (format : Format) (text : String) : Except Reading.Fault Node :=
  (format.read .node text).map Node.ofDatum

end Protoschema
