import Protoschema.Decl.Basic
import Protoschema.Text.Blank
/-!
The text of a proto3 file: a header, then each declaration behind an empty line. Declarations that a
message owns stand before its fields, one tab deeper.
-/

namespace Protoschema.Proto

/-- A line at a depth: one tab for each level. -/
def line (depth : Nat) (text : String) : String :=
  String.ofList (List.replicate depth '\t') ++ text ++ "\n"

/-- Keeps a text from ending the comment that it stands in. -/
def guardComment : List Char → List Char
  | [] => []
  | '*' :: '/' :: rest => '*' :: ' ' :: '/' :: guardComment rest
  | c :: rest => c :: guardComment rest

/-- A comment on one line: its words with a blank between each two; none if there are no words. -/
def commentText? (comment : Option String) : Option String :=
  match comment with
  | none => none
  | some text =>
    match Text.words text.toList with
    | [] => none
    | words => some (String.ofList (guardComment ([' '].intercalate words)))

/-- The line of a comment, if there is one. -/
def commentLine (depth : Nat) (comment : Option String) : String :=
  match commentText? comment with
  | none => ""
  | some text => line depth ("/* " ++ text ++ " */")

/-- A type as a field names it. -/
def typeText : Decl → String
  | .repeated item => typeText item
  | .map _ key value => "map<" ++ key ++ ", " ++ typeText value ++ ">"
  | decl => Ident.qualified decl.name

/-- The line of a field. -/
def fieldLine (depth : Nat) (field : Field Decl) : String :=
  let comment := match commentText? field.comment with
    | none => ""
    | some text => " /* " ++ text ++ " */"
  line depth <|
    (if field.type.isRepeated then "repeated " else "") ++ typeText field.type ++ " "
      ++ Ident.normalize field.name ++ " = " ++ toString field.number ++ ";" ++ comment

/-- The lines of fields. -/
def fieldLines (depth : Nat) (fields : List (Field Decl)) : String :=
  String.join (fields.map (fieldLine depth))

/-- The line of an enum's value. -/
def valueLine (depth : Nat) (lead : String) (value : String × Nat) : String :=
  line depth (lead ++ Ident.normalize value.1 ++ " = " ++ toString value.2 ++ ";")

/-- An enum. -/
def enumText (depth : Nat) (body : Enum) : String :=
  commentLine depth body.comment
    ++ line depth ("enum " ++ Ident.normalize body.name ++ " \x7b")
    ++ String.join (body.values.zipIdx.map (valueLine (depth + 1) (body.lead.getD "")))
    ++ line depth "\x7d"

/-- What opens a message. -/
def messageStart (depth : Nat) (comment : Option String) (name : String) : String :=
  commentLine depth comment ++ line depth ("message " ++ Ident.normalize name ++ " \x7b")

mutual

/-- A declaration at a depth. Types that are not declared have no text of their own. -/
def declText (depth : Nat) : Decl → String
  | .enum body => enumText depth body
  | .message ⟨name, nested, fields, comment⟩ =>
    messageStart depth comment name
      ++ nestedText (depth + 1) nested
      ++ fieldLines (depth + 1) fields
      ++ line depth "\x7d"
  | .union ⟨name, nested, fields, comment⟩ =>
    messageStart depth comment name
      ++ nestedText (depth + 1) nested
      ++ line (depth + 1) "oneof choice \x7b"
      ++ fieldLines (depth + 2) fields
      ++ line (depth + 1) "\x7d"
      ++ line depth "\x7d"
  | .named _ | .map _ _ _ | .repeated _ => ""

/-- The declarations that a message owns. -/
def nestedText (depth : Nat) : List Decl → String
  | [] => ""
  | decl :: rest => declText depth decl ++ nestedText depth rest

end

/-- A top-level declaration, behind an empty line. -/
def topLevelText (decl : Decl) : String :=
  if decl.isDeclaration then "\n" ++ declText 0 decl else ""

/-- A line of the header for an option: without blanks around it and semicolons behind it. -/
def optionLine (option : String) : String :=
  let trimmed := Text.trim option.toList
  let bare := (trimmed.reverse.dropWhile (· == ';')).reverse
  line 0 ("option " ++ String.ofList bare ++ ";")

/-- The line that names the package, unless it is empty. -/
def packageLine : Option String → String
  | none => ""
  | some package => if package = "" then "" else line 0 ("package " ++ package ++ ";")

/-- The line that imports a file. -/
def importLine (path : String) : String :=
  line 0 ("import \"" ++ path ++ "\";")

/-- The start of a file. -/
def header (package : Option String) (options importPaths : List String) : String :=
  line 0 "syntax = \"proto3\";"
    ++ packageLine package
    ++ String.join (options.map optionLine)
    ++ String.join (importPaths.map importLine)

/-- Top-level declarations, one after the other. -/
def body (decls : List Decl) : String :=
  String.join (decls.map topLevelText)

end Protoschema.Proto
