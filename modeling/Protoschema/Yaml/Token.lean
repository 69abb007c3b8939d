/-!
Tokens of a YAML text, the faults that can stop the reading of one, and the cursor that walks over
its characters.
-/

namespace Protoschema.Yaml

/-- Why a YAML text cannot be read on: the problem, and what was being read. -/
structure Fault where
  problem : String
  during : String := ""
deriving DecidableEq, Repr

/-- The wording of a fault. -/
def Fault.message (fault : Fault) : String :=
  if fault.during = "" then fault.problem else fault.problem ++ ", " ++ fault.during

/-- How a scalar is written, as far as it matters for its meaning. -/
inductive Style
  | plain
  | quoted
  | literal
deriving DecidableEq, Repr

/-- The octets of a tag, or of what a handle stands for in one. -/
abbrev Octets := List UInt8

/-- A token. -/
inductive Token
  | streamEnd
  | version (major minor : Nat)
  | tagHandle (handle : String) (start : Octets)
  | documentStart
  | documentEnd
  | blockSequence
  | blockMapping
  | blockEnd
  | openSequence
  | closeSequence
  | openMapping
  | closeMapping
  | blockEntry
  | flowEntry
  | key
  | value
  | alias (name : String)
  | anchor (name : String)
  | tag (handle : String) (suffix : Octets)
  | scalar (text : String) (style : Style)
deriving DecidableEq, Repr

/-! ### Characters -/

/-- A space or a tab. -/
def isBlank (c : Char) : Bool :=
  c == ' ' || c == '\t'

/-- A character that breaks a line. -/
def isBreak (c : Char) : Bool :=
  c == '\n' || c == '\r' || c == '\x85' || c == '\u2028' || c == '\u2029'

/-- A character that a name may hold. -/
def isWord (c : Char) : Bool :=
  c.isAlphanum || c == '_' || c == '-'

/-- Whether a text is at its end, at a blank or at a line break. -/
def atGap : List Char → Bool
  | [] => true
  | c :: _ => isBlank c || isBreak c

/-- Whether a text is at its end or at a line break. -/
def atLineEnd : List Char → Bool
  | [] => true
  | c :: _ => isBreak c

/-- Characters that a text may hold. -/
def isAllowed (c : Char) : Bool :=
  let n := c.toNat
  n == 0x09 || n == 0x0A || n == 0x0D || (0x20 ≤ n && n ≤ 0x7E) || n == 0x85
    || (0xA0 ≤ n && n ≤ 0xD7FF) || (0xE000 ≤ n && n ≤ 0xFFFD) || 0x10000 ≤ n

/-! ### The cursor -/

/-- A place in the text: what follows, and how far from the start it is. -/
structure Cursor where
  rest : List Char
  /-- The number of octets before it. -/
  index : Nat := 0
  line : Nat := 0
  column : Nat := 0
deriving DecidableEq, Repr, Inhabited

namespace Cursor

/-- Moves over one character that does not break the line. -/
def skip (cursor : Cursor) : Cursor :=
  match cursor.rest with
  | [] => cursor
  | c :: rest =>
    { cursor with rest, index := cursor.index + c.utf8Size, column := cursor.column + 1 }

/-- Moves over some such characters. -/
def skipMany (cursor : Cursor) : Nat → Cursor
  | 0 => cursor
  | count + 1 => cursor.skip.skipMany count

/-- Moves over such characters while they satisfy a predicate. -/
def skipWhile (cursor : Cursor) (p : Char → Bool) : Cursor :=
  cursor.skipMany (cursor.rest.takeWhile p).length

/-- The line break at the cursor as it counts in a scalar, and the cursor behind it. A carriage
return with its line feed counts as one; all but the two Unicode separators count as a line feed. -/
def takeBreak (cursor : Cursor) : List Char × Cursor :=
  match cursor.rest with
  | '\r' :: '\n' :: rest => (['\n'], ⟨rest, cursor.index + 2, cursor.line + 1, 0⟩)
  | c :: rest =>
    if isBreak c then
      (if c == '\u2028' || c == '\u2029' then [c] else ['\n'],
        ⟨rest, cursor.index + c.utf8Size, cursor.line + 1, 0⟩)
    else ([], cursor)
  | [] => ([], cursor)

/-- Moves over a comment, up to the end of the line. -/
def skipComment (cursor : Cursor) : Cursor :=
  match cursor.rest with
  | '#' :: _ => cursor.skipWhile fun c => !isBreak c
  | _ => cursor

/-- Whether a line that starts here marks the start or the end of a document. -/
def atDocumentMark (cursor : Cursor) : Bool :=
  cursor.column == 0 &&
    match cursor.rest with
    | '-' :: '-' :: '-' :: rest => atGap rest
    | '.' :: '.' :: '.' :: rest => atGap rest
    | _ => false

end Cursor

end Protoschema.Yaml
