import Protoschema.Command.Arguments
import Protoschema.Files.Path
import Protoschema.Options
/-!
The two commands and their settings: `proto` writes the compiled text, `check` only reports.
-/

namespace Protoschema.Command

/-- The settings that both commands take. -/
structure Settings where
  /-- Paths and patterns of paths. -/
  inputs : List String
  config : Option Path := none
  package : Option String := none
  optionLines : List String := []
  enumPrefix : Bool := false
  renames : List (String × String) := []
  only : List String := []
  strict : Bool := false
  noBox : Bool := false
deriving DecidableEq, Repr

/-- Where the compiled texts go. -/
inductive Target
  | output
  | file (path : Path)
  | directory (path : Path)
deriving DecidableEq, Repr

/-- What is done with the compiled texts. -/
structure Delivery where
  target : Target := .output
  /-- The directory that the builder generates into, if it is to be run. -/
  build : Option Path := none
  language : String := "go"
deriving DecidableEq, Repr

/-- A command. -/
inductive Request
  | proto (settings : Settings) (delivery : Delivery)
  | check (settings : Settings)
  | version
deriving DecidableEq, Repr

/-- The options of a compilation: those given on the command line come on top of others. -/
def Settings.apply (settings : Settings) (options : Options) : Options where
  enumPrefix := options.enumPrefix || settings.enumPrefix
  renames := settings.renames.foldl (fun renames (old, new) => renames.put old new) options.renames
  only := if settings.only.isEmpty then options.only else some settings.only
  optionLines := options.optionLines ++ settings.optionLines
  package := settings.package.orElse fun _ => options.package
  mode := if settings.strict then .strict else options.mode
  boxTopLevel := options.boxTopLevel && !settings.noBox

/-! ### From arguments -/

/-- The options of both commands. -/
def commonOptions : List Known := [
  { name := "input", letter := some 'i', arity := .several },
  { name := "config", arity := .once },
  { name := "package", letter := some 'p', arity := .once },
  { name := "option", arity := .each },
  { name := "enum-prefix", arity := .flag },
  { name := "rename", arity := .each },
  { name := "only", arity := .each },
  { name := "strict", arity := .flag },
  { name := "no-box", arity := .flag }]

/-- The options that say where compiled texts go. -/
def deliveryOptions : List Known := [
  { name := "out", letter := some 'o', arity := .once },
  { name := "out-dir", arity := .once },
  { name := "build", arity := .once },
  { name := "lang", arity := .once }]

/-- A rename: the old name and the new one with an equals sign between them, none of them empty. -/
def rename? (text : String) : Option (String × String) :=
  let old := text.toList.takeWhile (· != '=')
  match text.toList.dropWhile (· != '=') with
  | _ :: new =>
    if old.isEmpty || new.isEmpty then none else some (String.ofList old, String.ofList new)
  | [] => none

/-- The settings that options give. -/
def Settings.ofOptions (found : List (String × List String)) : Except UsageError Settings := do
  let inputs := valuesOf found "input"
  let renames ← (valuesOf found "rename").mapM fun text =>
    match rename? text with
    | some pair => .ok pair
    | none => .error (UsageError.badValue "rename" text)
  let config ← pathOf found "config"
  if inputs.isEmpty then .error (.required "input")
  else
    return {
      inputs, renames, config
      package := (valuesOf found "package").head?
      optionLines := valuesOf found "option"
      enumPrefix := isGiven found "enum-prefix"
      only := valuesOf found "only"
      strict := isGiven found "strict"
      noBox := isGiven found "no-box" }

/-- What options say of the compiled texts. -/
def Delivery.ofOptions (found : List (String × List String)) : Except UsageError Delivery := do
  let out ← pathOf found "out"
  let directory ← pathOf found "out-dir"
  let build ← pathOf found "build"
  let target ← match out, directory with
    | some _, some _ => .error (.conflict "out" "out-dir")
    | some path, none => .ok (Target.file path)
    | none, some path => .ok (Target.directory path)
    | none, none => .ok Target.output
  return { target, build, language := (valuesOf found "lang").headD "go" }

/-- The command that arguments stand for. -/
def Request.ofArguments : List String → Except UsageError Request
  | [] => .error .noCommand
  | first :: rest =>
    match first.toList with
    | '-' :: 'V' :: _ => .ok .version
    | _ =>
      if first = "--version" then .ok .version
      else if first = "proto" then do
        let found ← parse (commonOptions ++ deliveryOptions) rest
        return .proto (← Settings.ofOptions found) (← Delivery.ofOptions found)
      else if first = "check" then do
        return .check (← Settings.ofOptions (← parse commonOptions rest))
      else if first = "help" ∨ first = "--help" ∨ first.toList.take 2 = ['-', 'h'] then .error .help
      else .error (.stray first)

end Protoschema.Command
