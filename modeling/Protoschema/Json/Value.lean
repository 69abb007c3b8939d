import Protoschema.Decimal.Shortest
/-!
JSON values and their text. A number is an integer or a real; an object keeps its members in order.
Reals are written with the fewest digits that read back: positionally while the leading digit stands
between the fifth place after the point and the sixteenth before it, else with a signed exponent.
-/

namespace Protoschema.Json

/-- A number: whole, or a 64-bit real. -/
inductive Number
  | whole (value : Int)
  | real (value : Float)
deriving Repr

/-- A JSON value. -/
inductive Value
  | null
  | flag (value : Bool)
  | number (value : Number)
  | text (value : String)
  | list (items : List Value)
  | object (members : List (String × Value))
deriving Repr, Inhabited

namespace Number

/-- The magnitude of a finite real that is not zero. -/
def magnitudeText (decimal : Decimal) : List Char :=
  if -5 ≤ decimal.leading ∧ decimal.leading ≤ 15 then decimal.positional else decimal.scientific

/-- The text of a finite real. -/
def realText (value : Float) : String :=
  let sign := if value.toBits < 0x8000000000000000 then [] else ['-']
  let magnitude := match Binary.ofBits? value.toBits with
    | none => ['0', '.', '0']
    | some number => magnitudeText (Decimal.shortest number)
  String.ofList (sign ++ magnitude)

/-- The text of a number. -/
def text : Number → String
  | .whole value => toString value
  | .real value => realText value

end Number

/-- A control character as four hexadecimal digits. -/
def controlEscape (c : Char) : List Char :=
  ['\\', 'u', '0', '0'] ++ (if c.toNat < 16 then ['0'] else []) ++ Nat.toDigits 16 c.toNat

/-- One character inside a JSON string. -/
def escapeChar (c : Char) : List Char :=
  match c with
  | '"' => ['\\', '"']
  | '\\' => ['\\', '\\']
  | '\x08' => ['\\', 'b']
  | '\t' => ['\\', 't']
  | '\n' => ['\\', 'n']
  | '\x0c' => ['\\', 'f']
  | '\r' => ['\\', 'r']
  | c => if c.toNat < 0x20 then controlEscape c else [c]

/-- A text as a JSON string. -/
def stringText (text : String) : String :=
  String.ofList ('"' :: text.toList.flatMap escapeChar ++ ['"'])

/-- Texts with a comma between each two. -/
def commas (texts : List String) : String :=
  ",".intercalate texts

namespace Value

mutual

/-- The text of a value, without blanks. -/
def compact : Value → String
  | .null => "null"
  | .flag true => "true"
  | .flag false => "false"
  | .number value => value.text
  | .text value => stringText value
  | .list items => "[" ++ commas (compactItems items) ++ "]"
  | .object members => "\x7b" ++ commas (compactMembers members) ++ "\x7d"

/-- The texts of the items of a list. -/
def compactItems : List Value → List String
  | [] => []
  | item :: rest => item.compact :: compactItems rest

/-- The texts of the members of an object. -/
def compactMembers : List (String × Value) → List String
  | [] => []
  | (key, value) :: rest => (stringText key ++ ":" ++ value.compact) :: compactMembers rest

end

/-- Texts on lines of their own at an indentation, between two brackets. -/
def block (opening closing : String) (depth : Nat) (lines : List String) : String :=
  if lines.isEmpty then opening ++ closing
  else
    let indent := "\n" ++ String.ofList (List.replicate (2 * depth + 2) ' ')
    opening ++ indent ++ ("," ++ indent).intercalate lines ++ "\n"
      ++ String.ofList (List.replicate (2 * depth) ' ') ++ closing

mutual

/-- The text of a value with every item on a line of its own, two blanks deeper. -/
def pretty (depth : Nat) : Value → String
  | .list items => block "[" "]" depth (prettyItems (depth + 1) items)
  | .object members => block "\x7b" "\x7d" depth (prettyMembers (depth + 1) members)
  | .null => "null"
  | .flag true => "true"
  | .flag false => "false"
  | .number value => value.text
  | .text value => stringText value

/-- The texts of the items of a list. -/
def prettyItems (depth : Nat) : List Value → List String
  | [] => []
  | item :: rest => item.pretty depth :: prettyItems depth rest

/-- The texts of the members of an object. -/
def prettyMembers (depth : Nat) : List (String × Value) → List String
  | [] => []
  | (key, value) :: rest =>
    (stringText key ++ ": " ++ value.pretty depth) :: prettyMembers depth rest

end

/-- The value under a key of an object. -/
def get? : Value → String → Option Value
  | .object members, key => (members.find? (·.1 == key)).map Prod.snd
  | _, _ => none

end Value

end Protoschema.Json
