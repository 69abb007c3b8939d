/-!
Command line arguments. An option is written `--name value` or `--name=value`, and one with a letter
also `-n value`, `-nvalue` or `-n=value`. What starts with a dash is never a value, a lone dash
apart.
-/

namespace Protoschema.Command

/-- How many values an option takes, and how often it may stand. -/
inductive Arity
  /-- No value, at most once. -/
  | flag
  /-- One value, at most once. -/
  | once
  /-- One value each time. -/
  | each
  /-- One value or more each time. -/
  | several
deriving DecidableEq, Repr

/-- An option that a command knows. -/
structure Known where
  name : String
  letter : Option Char := none
  arity : Arity
deriving DecidableEq, Repr

/-- Why arguments are refused. -/
inductive UsageError
  | unknownOption (text : String)
  | missingValue (name : String)
  | unwantedValue (name : String)
  | repeated (name : String)
  | stray (text : String)
  | required (name : String)
  | conflict (first second : String)
  | badValue (name value : String)
  | noCommand
  /-- Help was asked for. -/
  | help
deriving DecidableEq, Repr

/-- The wording of a usage error. -/
def UsageError.message : UsageError → String
  | .unknownOption text => "unexpected argument '" ++ text ++ "' found"
  | .missingValue name => "a value is required for '--" ++ name ++ "' but none was supplied"
  | .unwantedValue name => "unexpected value for '--" ++ name ++ "'"
  | .repeated name => "the argument '--" ++ name ++ "' cannot be used multiple times"
  | .stray text => "unexpected argument '" ++ text ++ "' found"
  | .required name => "the argument '--" ++ name ++ "' is required"
  | .conflict first second =>
    "the argument '--" ++ first ++ "' cannot be used with '--" ++ second ++ "'"
  | .badValue name value => "invalid value '" ++ value ++ "' for '--" ++ name ++ "'"
  | .noCommand => "a command is required"
  | .help => "help"

/-- The options read so far: each with the values that came with it. -/
structure Reading where
  found : List (String × List String) := []
  /-- An option that may take more values, and those it has. -/
  pending : Option (Known × List String) := none
  /-- Whether options have ended. -/
  ended : Bool := false

namespace Reading

/-- Adds an option with its values. -/
def add (reading : Reading) (known : Known) (values : List String) : Except UsageError Reading :=
  let single := known.arity = .flag || known.arity = .once
  if single && reading.found.any (·.1 == known.name) then .error (.repeated known.name)
  else .ok { reading with found := reading.found ++ [(known.name, values)], pending := none }

/-- Ends the option that may take more values. -/
def settle (reading : Reading) : Except UsageError Reading :=
  match reading.pending with
  | none => .ok reading
  | some (known, []) => .error (.missingValue known.name)
  | some (known, values) => reading.add known values

/-- Reads an option that may have a value attached. -/
def option (reading : Reading) (known : Known) (value? : Option String) :
    Except UsageError Reading := do
  let reading ← reading.settle
  match known.arity, value? with
  | .flag, none => reading.add known []
  | .flag, some _ => .error (.unwantedValue known.name)
  | _, some value => reading.add known [value]
  | _, none => return { reading with pending := some (known, []) }

/-- Reads what is no option. -/
def value (reading : Reading) (text : String) : Except UsageError Reading :=
  match reading.pending with
  | none => .error (.stray text)
  | some (known, values) =>
    if known.arity = .several then
      .ok { reading with pending := some (known, values ++ [text]) }
    else reading.add known [text]

/-- Reads an option by its name, behind the two dashes. -/
def long (options : List Known) (reading : Reading) (text : List Char) :
    Except UsageError Reading :=
  let name := String.ofList (text.takeWhile (· != '='))
  let value? := match text.dropWhile (· != '=') with
    | _ :: value => some (String.ofList value)
    | [] => none
  match options.find? (·.name == name) with
  | some known => reading.option known value?
  | none =>
    if name = "help" && value?.isNone then .error .help else .error (.unknownOption name)

/-- Reads an option by its letter, behind the dash. -/
def short (options : List Known) (reading : Reading) (letter : Char) (rest : List Char) :
    Except UsageError Reading :=
  match options.find? (·.letter == some letter) with
  | some known =>
    match rest with
    | [] => reading.option known none
    | '=' :: value => reading.option known (some (String.ofList value))
    | value => reading.option known (some (String.ofList value))
  | none => if letter = 'h' then .error .help else .error (.unknownOption (String.ofList [letter]))

/-- Reads one argument. -/
def argument (options : List Known) (reading : Reading) (text : String) :
    Except UsageError Reading :=
  if reading.ended then .error (.stray text)
  else
    match text.toList with
    | ['-', '-'] => do return { ← reading.settle with ended := true }
    | '-' :: '-' :: name => reading.long options name
    | '-' :: letter :: rest => reading.short options letter rest
    | _ => reading.value text

end Reading

/-- The options that arguments give, in order, each with its values. -/
def parse (options : List Known) (arguments : List String) :
    Except UsageError (List (String × List String)) := do
  let reading ← arguments.foldlM (Reading.argument options) {}
  return (← reading.settle).found

/-- All values of an option. -/
def valuesOf (found : List (String × List String)) (name : String) : List String :=
  (found.filter (·.1 == name)).flatMap Prod.snd

/-- Whether an option stands among the arguments. -/
def isGiven (found : List (String × List String)) (name : String) : Bool :=
  found.any (·.1 == name)

/-- The path that an option gives; it cannot be empty. -/
def pathOf (found : List (String × List String)) (name : String) :
    Except UsageError (Option String) :=
  match valuesOf found name with
  | [] => .ok none
  | path :: _ => if path = "" then .error (.missingValue name) else .ok (some path)

end Protoschema.Command
