/-!
Identifiers of the emitted text. A source name becomes one identifier by replacing every character
outside letters, digits and underscore; a qualified name is treated segment by segment.
-/

namespace Protoschema.Ident

/-- Letters, digits and the underscore; all else is replaced. The letters are those of ASCII, as
the emitted language has it. -/
def isPlain (c : Char) : Bool :=
  c.isAlphanum || c == '_'

/-- An underscore stands for every character that an identifier cannot hold. -/
def clean (name : List Char) : List Char :=
  name.map fun c => if isPlain c then c else '_'

/-- An identifier does not start with a digit: an underscore is put in front. -/
def guardDigit : List Char → List Char
  | [] => []
  | c :: rest => if c.isDigit then '_' :: c :: rest else c :: rest

/-- The identifier that a source name is emitted as. -/
def normalize (name : String) : String :=
  String.ofList (guardDigit (clean name.toList))

/-- A dotted name with each segment made an identifier. -/
def qualified (name : String) : String :=
  ".".intercalate ((name.toList.splitOn '.').map fun segment => normalize (String.ofList segment))

/-- What follows the last dot of a dotted name; the whole name if there is none. -/
def unqualified (name : String) : String :=
  String.ofList ((name.toList.splitOn '.').getLast?.getD [])

end Protoschema.Ident
