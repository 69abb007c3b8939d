import Protoschema.Json.Outline
import Protoschema.Yaml.Token
/-!
The text of scalars. Plain and quoted scalars run over several lines, which are folded: a single
line break counts as a space, and of several the first is dropped. Block scalars keep their lines,
or fold those that are not indented further.
-/

namespace Protoschema.Yaml

/-! ### Folding -/

/-- The text read so far, in reverse, and the gap behind it: blanks, or line breaks. -/
structure Folding where
  text : List Char := []
  /-- The blanks since the last character, in reverse. -/
  blanks : List Char := []
  /-- Whether the gap has a line break in it. -/
  broken : Bool := false
  /-- The first line break of the gap. -/
  first : List Char := []
  /-- The further line breaks, in order. -/
  further : List Char := []

namespace Folding

/-- Whether there is a gap. -/
def hasGap (folding : Folding) : Bool :=
  folding.broken || !folding.blanks.isEmpty

/-- The text that a gap counts as. -/
def gap (folding : Folding) : List Char :=
  if folding.broken then
    if folding.first = ['\n'] then
      if folding.further.isEmpty then [' '] else folding.further
    else folding.first ++ folding.further
  else folding.blanks.reverse

/-- Adds the gap to the text. -/
def close (folding : Folding) : Folding :=
  { text := folding.gap.reverse ++ folding.text }

/-- Adds a character, with the gap before it. -/
def push (folding : Folding) (c : Char) : Folding :=
  { folding.close with text := c :: folding.close.text }

/-- Takes a blank into the gap; it counts only before the first line break. -/
def addBlank (folding : Folding) (c : Char) : Folding :=
  if folding.broken then folding else { folding with blanks := c :: folding.blanks }

/-- Takes a line break into the gap. -/
def addBreak (folding : Folding) (text : List Char) : Folding :=
  if folding.broken then { folding with further := folding.further ++ text }
  else { folding with blanks := [], broken := true, first := folding.first ++ text }

/-- What has been read. -/
def result (folding : Folding) : String :=
  String.ofList folding.text.reverse

end Folding

/-! ### Plain scalars -/

/-- The characters that end a plain scalar inside brackets. -/
def isFlowMark (c : Char) : Bool :=
  c == ',' || c == '[' || c == ']' || c == '\x7b' || c == '\x7d'

/-- Whether a colon in a plain scalar ends it. -/
def colonEnds : List Char → Bool
  | ':' :: rest => atGap rest
  | _ => false

/-- Whether a colon stands right before a mark that it cannot stand before inside brackets. -/
def colonClashes : List Char → Bool
  | ':' :: c :: _ => isFlowMark c || c == '?'
  | _ => false

/-- Reads a plain scalar on. `inFlow` says whether it stands inside brackets, `indent` is the least
column of its further lines. Gives what was read, whether it ends behind a line break, and where. -/
def plainFrom (inFlow : Bool) (indent : Int) :
    Nat → Cursor → Folding → Except Fault (Folding × Cursor)
  | 0, cursor, folding => .ok (folding, cursor)
  | fuel + 1, cursor, folding =>
    match cursor.rest with
    | [] => .ok (folding, cursor)
    | c :: _ =>
      if isBlank c then
        if c == '\t' && folding.broken && (cursor.column : Int) < indent then
          .error ⟨"found a tab character that violates indentation",
            "while scanning a plain scalar"⟩
        else plainFrom inFlow indent fuel cursor.skip (folding.addBlank c)
      else if isBreak c then
        let (text, next) := cursor.takeBreak
        plainFrom inFlow indent fuel next (folding.addBreak text)
      else if folding.hasGap && !inFlow && (cursor.column : Int) < indent then .ok (folding, cursor)
      else if cursor.atDocumentMark then .ok (folding, cursor)
      else if c == '#' && folding.hasGap then .ok (folding, cursor)
      else if inFlow && colonClashes cursor.rest then
        .error ⟨"found unexpected ':'", "while scanning a plain scalar"⟩
      else if colonEnds cursor.rest || (inFlow && isFlowMark c) then .ok (folding, cursor)
      else plainFrom inFlow indent fuel cursor.skip (folding.push c)

/-- Reads a plain scalar in a text of some length: what it says, whether a line break follows it,
and the cursor behind. -/
def scanPlain (limit : Nat) (inFlow : Bool) (indent : Int) (cursor : Cursor) :
    Except Fault (String × Bool × Cursor) := do
  let (folding, next) ← plainFrom inFlow indent (limit + 1) cursor {}
  return (folding.result, folding.broken, next)

/-! ### Quoted scalars -/

/-- The character of a one-letter escape. -/
def escaped? (c : Char) : Option Char :=
  match c with
  | '0' => some '\x00'
  | 'a' => some '\x07'
  | 'b' => some '\x08'
  | 't' | '\t' => some '\t'
  | 'n' => some '\n'
  | 'v' => some '\x0b'
  | 'f' => some '\x0c'
  | 'r' => some '\r'
  | 'e' => some '\x1b'
  | ' ' => some ' '
  | '"' => some '"'
  | '/' => some '/'
  | '\\' => some '\\'
  | 'N' => some '\x85'
  | '_' => some '\xa0'
  | 'L' => some '\u2028'
  | 'P' => some '\u2029'
  | _ => none

/-- How many hexadecimal digits follow the letter of an escape. -/
def escapeLength? (c : Char) : Option Nat :=
  match c with
  | 'x' => some 2
  | 'u' => some 4
  | 'U' => some 8
  | _ => none

/-- The character that hexadecimal digits stand for. -/
def hexChar (count : Nat) (cs : List Char) : Except Fault Char :=
  let digits := (cs.take count).filterMap Json.hexDigit?
  if digits.length < count then
    .error ⟨"did not find expected hexadecimal number", "while parsing a quoted scalar"⟩
  else
    let point := digits.foldl (fun n digit => 16 * n + digit) 0
    if (0xD800 ≤ point ∧ point ≤ 0xDFFF) ∨ 0x10FFFF < point then
      .error ⟨"found invalid Unicode character escape code", "while parsing a quoted scalar"⟩
    else .ok (Char.ofNat point)

/-- Reads an escape behind its backslash. -/
def scanEscape (cursor : Cursor) (folding : Folding) : Except Fault (Folding × Cursor) :=
  match cursor.rest with
  | [] => .error ⟨"found unknown escape character", "while parsing a quoted scalar"⟩
  | c :: rest =>
    if isBreak c then .ok ({ folding.close with broken := true }, cursor.takeBreak.2)
    else
      match escaped? c, escapeLength? c with
      | some meant, _ => .ok (folding.push meant, cursor.skip)
      | none, some count => do
        let meant ← hexChar count rest
        return (folding.push meant, cursor.skipMany (count + 1))
      | none, none => .error ⟨"found unknown escape character", "while parsing a quoted scalar"⟩

/-- Reads a quoted scalar on, up to and with its closing quote. -/
def quotedFrom (quote : Char) : Nat → Cursor → Folding → Except Fault (Folding × Cursor)
  | 0, _, _ => .error ⟨"found unexpected end of stream", "while scanning a quoted scalar"⟩
  | fuel + 1, cursor, folding =>
    match cursor.rest with
    | [] => .error ⟨"found unexpected end of stream", "while scanning a quoted scalar"⟩
    | c :: rest =>
      if isBlank c then quotedFrom quote fuel cursor.skip (folding.addBlank c)
      else if isBreak c then
        let (text, next) := cursor.takeBreak
        quotedFrom quote fuel next (folding.addBreak text)
      else if cursor.atDocumentMark then
        .error ⟨"found unexpected document indicator", "while scanning a quoted scalar"⟩
      else if c == quote then
        if quote == '\'' && rest.head? == some '\'' then
          quotedFrom quote fuel (cursor.skipMany 2) (folding.push '\'')
        else .ok (folding.close, cursor.skip)
      else if quote == '"' && c == '\\' then do
        let (folding, next) ← scanEscape cursor.skip folding.close
        quotedFrom quote fuel next folding
      else quotedFrom quote fuel cursor.skip (folding.push c)

/-- Reads a quoted scalar in a text of some length from its opening quote on. -/
def scanQuoted (limit : Nat) (quote : Char) (cursor : Cursor) : Except Fault (String × Cursor) := do
  let (folding, next) ← quotedFrom quote (limit + 1) cursor.skip {}
  return (folding.result, next)

/-! ### Block scalars -/

/-- What happens to the line breaks at the end of a block scalar. -/
inductive Chomp
  | strip
  | clip
  | keep
deriving DecidableEq, Repr

/-- The marks behind the indicator of a block scalar: chomping, and the indentation, in any
order. -/
def blockMarks (cursor : Cursor) : Except Fault (Chomp × Nat × Cursor) :=
  let chomp (cursor : Cursor) : Chomp × Cursor :=
    match cursor.rest with
    | '+' :: _ => (.keep, cursor.skip)
    | '-' :: _ => (.strip, cursor.skip)
    | _ => (.clip, cursor)
  let digit (cursor : Cursor) : Except Fault (Nat × Cursor) :=
    match cursor.rest with
    | c :: _ =>
      if c == '0' then
        .error ⟨"found an indentation indicator equal to 0", "while scanning a block scalar"⟩
      else if c.isDigit then .ok (c.toNat - '0'.toNat, cursor.skip)
      else .ok (0, cursor)
    | [] => .ok (0, cursor)
  match chomp cursor with
  | (.clip, _) => do
    let (indent, cursor) ← digit cursor
    if indent = 0 then return (.clip, 0, cursor)
    else
      let (mode, cursor) := chomp cursor
      return (mode, indent, cursor)
  | (mode, cursor) => do
    let (indent, cursor) ← digit cursor
    return (mode, indent, cursor)

/-- Moves over the indentation and the empty lines in front of a line of a block scalar. Gives the
breaks passed, the greatest column reached, and the cursor. An indentation of zero is not known
yet. -/
def blockBreaks (indent : Nat) :
    Nat → Cursor → List Char → Nat → Except Fault (List Char × Nat × Cursor)
  | 0, cursor, breaks, widest => .ok (breaks, widest, cursor)
  | fuel + 1, cursor, breaks, widest =>
    let spaces := (cursor.rest.takeWhile (· == ' ')).length
    let count := if indent = 0 then spaces else min spaces (indent - cursor.column)
    let cursor := cursor.skipMany count
    let widest := max widest cursor.column
    match cursor.rest with
    | c :: _ =>
      if c == '\t' && (indent = 0 || cursor.column < indent) then
        .error ⟨"found a tab character where an indentation space is expected",
          "while scanning a block scalar"⟩
      else if isBreak c then
        let (text, next) := cursor.takeBreak
        blockBreaks indent fuel next (breaks ++ text) widest
      else .ok (breaks, widest, cursor)
    | [] => .ok (breaks, widest, cursor)

/-- A block scalar read so far: its text in reverse, the break at the end of its last line, the
empty lines behind it, and whether that line starts with a blank. -/
structure Block where
  text : List Char := []
  lastBreak : List Char := []
  breaks : List Char := []
  blankStart : Bool := false

/-- Reads the lines of a block scalar. -/
def blockLines (limit : Nat) (literal : Bool) (indent : Nat) :
    Nat → Cursor → Block → Except Fault (Block × Cursor)
  | 0, cursor, block => .ok (block, cursor)
  | fuel + 1, cursor, block =>
    match cursor.rest with
    | [] => .ok (block, cursor)
    | c :: _ =>
      if cursor.column != indent then .ok (block, cursor)
      else do
        let blank := isBlank c
        let joint :=
          if !literal && block.lastBreak = ['\n'] && !block.blankStart && !blank then
            if block.breaks.isEmpty then [' '] else []
          else block.lastBreak
        let line := cursor.rest.takeWhile fun c => !isBreak c
        let (lastBreak, next) := (cursor.skipMany line.length).takeBreak
        let (breaks, _, next) ← blockBreaks indent (limit + 1) next [] 0
        blockLines limit literal indent fuel next {
          text := line.reverse ++ block.breaks.reverse ++ joint.reverse ++ block.text
          lastBreak, breaks
          blankStart := blank }

/-- Reads a block scalar in a text of some length behind its indicator, given the indentation of
what it stands in. -/
def scanBlock (limit : Nat) (literal : Bool) (parent : Int) (cursor : Cursor) :
    Except Fault (String × Cursor) := do
  let (chomp, increment, cursor) ← blockMarks cursor
  let cursor := (cursor.skipWhile isBlank).skipComment
  if !atLineEnd cursor.rest then
    .error ⟨"did not find expected comment or line break", "while scanning a block scalar"⟩
  else
    let cursor := cursor.takeBreak.2
    let given := if increment = 0 then 0 else (max parent 0).toNat + increment
    let (breaks, widest, cursor) ← blockBreaks given (limit + 1) cursor [] 0
    let indent := if given = 0 then max (max widest (parent + 1).toNat) 1 else given
    let (block, cursor) ← blockLines limit literal indent (limit + 1) cursor { breaks }
    let text := match chomp with
      | .strip => block.text
      | .clip => block.lastBreak.reverse ++ block.text
      | .keep => block.breaks.reverse ++ block.lastBreak.reverse ++ block.text
    return (String.ofList text.reverse, cursor)

end Protoschema.Yaml
