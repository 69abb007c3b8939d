import Protoschema.Yaml.Marks
import Protoschema.Yaml.Scalar
/-!
The tokens of a YAML text. Outside brackets, indentation opens and closes collections. That a node
is a key shows only at the colon behind it, so places where a key may have started are remembered,
and the tokens that announce it are put in there later. A key ends on its line, within 1024
octets.
-/

namespace Protoschema.Yaml

/-- A place where a key may have started. -/
structure Candidate where
  /-- Whether nothing but a key can stand there. -/
  required : Bool
  /-- The number of tokens before it. -/
  number : Nat
  cursor : Cursor
deriving Repr

/-- How far a text has been scanned. -/
structure Scan where
  cursor : Cursor
  /-- The length of the whole text, which nothing in it exceeds. -/
  limit : Nat
  tokens : Array Token := #[]
  /-- The candidates for a key: one place for each open bracket, the innermost first, and one for
  what stands outside all brackets. -/
  candidates : List (Option Candidate) := [none]
  /-- The column of the innermost block collection, or -1. -/
  indent : Int := -1
  /-- The columns of the block collections around it. -/
  indents : List Int := []
  /-- Whether a key may start here. -/
  keyAllowed : Bool := true

/-- What a step of scanning yields. -/
abbrev Scans := Except Fault Scan

namespace Scan

/-- Whether the place is inside brackets. -/
def inFlow (scan : Scan) : Bool :=
  1 < scan.candidates.length

/-- Adds a token. -/
def push (scan : Scan) (token : Token) : Scan :=
  { scan with tokens := scan.tokens.push token }

/-- Puts a token in behind the first `number` tokens. -/
def insert (scan : Scan) (number : Nat) (token : Token) : Scan :=
  { scan with tokens := scan.tokens.insertIdxIfInBounds number token }

/-- Moves over some characters. -/
def skip (scan : Scan) (count : Nat) : Scan :=
  { scan with cursor := scan.cursor.skipMany count }

/-- Says whether a key may start here. -/
def allowKey (scan : Scan) (allowed : Bool) : Scan :=
  { scan with keyAllowed := allowed }

/-! ### Indentation -/

/-- Opens a block collection at a column, unless one is open there. Its token goes behind the first
`number` tokens. -/
def openBlock (scan : Scan) (column number : Nat) (token : Token) : Scan :=
  if scan.inFlow || (column : Int) ≤ scan.indent then scan
  else
    { scan.insert number token with
      indent := column
      indents := scan.indent :: scan.indents }

/-- Closes the given collections as long as they lie right of a column. -/
def closeBlocksFrom (scan : Scan) (column : Int) : List Int → Scan
  | [] => scan
  | outer :: rest =>
    if column < scan.indent then
      closeBlocksFrom { scan.push .blockEnd with indent := outer, indents := rest } column rest
    else scan

/-- Closes the block collections that lie right of a column. -/
def closeBlocks (scan : Scan) (column : Int) : Scan :=
  if scan.inFlow then scan else scan.closeBlocksFrom column scan.indents

/-! ### Keys -/

/-- The fault of a place where only a key can stand. -/
def missingColon : Fault :=
  ⟨"could not find expected ':'", "while scanning a simple key"⟩

/-- Drops a candidate that its key has not reached in time. -/
def freshCandidate (cursor : Cursor) : Option Candidate → Except Fault (Option Candidate)
  | none => .ok none
  | some candidate =>
    if candidate.cursor.line < cursor.line ∨ candidate.cursor.index + 1024 < cursor.index then
      if candidate.required then .error missingColon else .ok none
    else .ok (some candidate)

/-- Drops all candidates that have gone stale; the outermost is looked at first. -/
def dropStale (scan : Scan) : Scans := do
  let candidates ← scan.candidates.reverse.mapM (freshCandidate scan.cursor)
  return { scan with candidates := candidates.reverse }

/-- Drops the innermost candidate. -/
def dropCandidate (scan : Scan) : Scans :=
  match scan.candidates with
  | some candidate :: rest =>
    if candidate.required then .error missingColon
    else .ok { scan with candidates := none :: rest }
  | _ => .ok scan

/-- Notes that a key may start here. -/
def noteCandidate (scan : Scan) : Scans :=
  if scan.keyAllowed then do
    let scan ← scan.dropCandidate
    let candidate : Candidate := {
      required := !scan.inFlow && scan.indent == (scan.cursor.column : Int)
      number := scan.tokens.size
      cursor := scan.cursor }
    return { scan with candidates := some candidate :: scan.candidates.drop 1 }
  else .ok scan

/-! ### Blanks and comments -/

/-- Moves over blanks, comments and line breaks. Tabs count as blanks only where no key can
start. A line may start with the mark of a byte order, which takes a column. -/
def skipGaps : Nat → Scan → Scan
  | 0, scan => scan
  | fuel + 1, scan =>
    let tabs := scan.inFlow || !scan.keyAllowed
    let cursor :=
      if scan.cursor.column == 0 && scan.cursor.rest.head? == some '\ufeff' then scan.cursor.skip
      else scan.cursor
    let cursor := (cursor.skipWhile fun c => c == ' ' || (tabs && c == '\t')).skipComment
    match cursor.rest with
    | c :: _ =>
      if isBreak c then
        skipGaps fuel
          { scan with
            cursor := cursor.takeBreak.2
            keyAllowed := scan.keyAllowed || !scan.inFlow }
      else { scan with cursor }
    | [] => { scan with cursor }

/-! ### One token -/

/-- Takes a directive. -/
def takeDirective (scan : Scan) : Scans := do
  let scan ← (scan.closeBlocks (-1)).dropCandidate
  let cursor := scan.cursor.skip
  let name := cursor.rest.takeWhile isWord
  let cursor := cursor.skipMany name.length
  let during := "while scanning a directive"
  if name.isEmpty then .error ⟨"could not find expected directive name", during⟩
  else if !atGap cursor.rest then .error ⟨"found unexpected non-alphabetical character", during⟩
  else
    let (token, cursor) ←
      if name = "YAML".toList then versionDirective cursor
      else if name = "TAG".toList then tagDirective cursor
      else .error ⟨"found unknown directive name", during⟩
    let cursor := (cursor.skipWhile isBlank).skipComment
    if !atLineEnd cursor.rest then
      .error ⟨"did not find expected comment or line break", during⟩
    else return { scan.push token with cursor := cursor.takeBreak.2, keyAllowed := false }

/-- Takes the mark of the start or the end of a document. -/
def takeDocumentMark (scan : Scan) (token : Token) : Scans := do
  let scan ← (scan.closeBlocks (-1)).dropCandidate
  return (scan.allowKey false).skip 3 |>.push token

/-- Takes the end of the text. -/
def takeEnd (scan : Scan) : Scans := do
  let scan ← (scan.closeBlocks (-1)).dropCandidate
  return (scan.allowKey false).push .streamEnd

/-- Takes an opening bracket. -/
def takeOpening (scan : Scan) (token : Token) : Scans := do
  let scan ← scan.noteCandidate
  return ({ scan with candidates := none :: scan.candidates }.allowKey true).skip 1 |>.push token

/-- Takes a closing bracket. -/
def takeClosing (scan : Scan) (token : Token) : Scans := do
  let scan ← scan.dropCandidate
  let candidates := if scan.inFlow then scan.candidates.drop 1 else scan.candidates
  return ({ scan with candidates }.allowKey false).skip 1 |>.push token

/-- Takes a comma between brackets. -/
def takeComma (scan : Scan) : Scans := do
  let scan ← scan.dropCandidate
  return (scan.allowKey true).skip 1 |>.push .flowEntry

/-- Takes the dash of an item. -/
def takeDash (scan : Scan) : Scans := do
  if !scan.inFlow && !scan.keyAllowed then
    .error ⟨"block sequence entries are not allowed in this context", ""⟩
  else
    let opened := scan.openBlock scan.cursor.column scan.tokens.size .blockSequence
    let scan ← opened.dropCandidate
    return (scan.allowKey true).skip 1 |>.push .blockEntry

/-- Takes the question mark of a key. -/
def takeQuestion (scan : Scan) : Scans := do
  if !scan.inFlow && !scan.keyAllowed then
    .error ⟨"mapping keys are not allowed in this context", ""⟩
  else
    let opened := scan.openBlock scan.cursor.column scan.tokens.size .blockMapping
    let scan ← opened.dropCandidate
    return (scan.allowKey (!scan.inFlow)).skip 1 |>.push .key

/-- Takes the colon before a value. -/
def takeColon (scan : Scan) : Scans :=
  match scan.candidates with
  | some candidate :: rest =>
    let scan := (scan.insert candidate.number .key).openBlock candidate.cursor.column
      candidate.number .blockMapping
    .ok (({ scan with candidates := none :: rest }.allowKey false).skip 1 |>.push .value)
  | _ =>
    if scan.inFlow then .ok ((scan.allowKey false).skip 1 |>.push .value)
    else if scan.keyAllowed then
      let opened := scan.openBlock scan.cursor.column scan.tokens.size .blockMapping
      .ok ((opened.allowKey true).skip 1 |>.push .value)
    else .error ⟨"mapping values are not allowed in this context", ""⟩

/-- Takes an anchor or an alias. -/
def takeAnchor (scan : Scan) (during : String) (token : String → Token) : Scans := do
  let scan ← scan.noteCandidate
  let (name, cursor) ← anchorName during scan.cursor.skip
  return { scan.push (token name) with cursor, keyAllowed := false }

/-- Takes a tag. -/
def takeTag (scan : Scan) : Scans := do
  let scan ← scan.noteCandidate
  let (token, cursor) ← tagToken scan.inFlow scan.cursor
  return { scan.push token with cursor, keyAllowed := false }

/-- Takes a block scalar. -/
def takeBlock (scan : Scan) (literal : Bool) : Scans := do
  let scan ← scan.dropCandidate
  let (text, cursor) ← scanBlock scan.limit literal scan.indent scan.cursor.skip
  let style := if literal then Style.literal else .quoted
  return { scan.push (.scalar text style) with cursor, keyAllowed := true }

/-- Takes a quoted scalar. -/
def takeQuoted (scan : Scan) (quote : Char) : Scans := do
  let scan ← scan.noteCandidate
  let (text, cursor) ← scanQuoted scan.limit quote scan.cursor
  return { scan.push (.scalar text .quoted) with cursor, keyAllowed := false }

/-- Takes a plain scalar. -/
def takePlain (scan : Scan) : Scans := do
  let scan ← scan.noteCandidate
  let (text, broken, cursor) ← scanPlain scan.limit scan.inFlow (scan.indent + 1) scan.cursor
  return { scan.push (.scalar text .plain) with cursor, keyAllowed := broken }

/-- Whether a plain scalar can start with a character, given what follows it. -/
def startsPlain (inFlow : Bool) (c : Char) (rest : List Char) : Bool :=
  if c == '-' then !(rest.head?.any isBlank)
  else if c == '?' || c == ':' then !inFlow && !atGap rest
  else !(isBlank c || ",[]\x7b\x7d#&*!|>'\"%@`".toList.contains c)

/-- Takes the next token, which starts with the given character. -/
def takeToken (scan : Scan) (c : Char) (rest : List Char) : Scans :=
  let flow := scan.inFlow
  if scan.cursor.column == 0 && c == '%' then scan.takeDirective
  else if scan.cursor.atDocumentMark then
    scan.takeDocumentMark (if c == '-' then .documentStart else .documentEnd)
  else if c == '[' then scan.takeOpening .openSequence
  else if c == '\x7b' then scan.takeOpening .openMapping
  else if c == ']' then scan.takeClosing .closeSequence
  else if c == '\x7d' then scan.takeClosing .closeMapping
  else if c == ',' then scan.takeComma
  else if c == '-' && atGap rest then scan.takeDash
  else if c == '?' && (flow || atGap rest) then scan.takeQuestion
  else if c == ':' && (flow || atGap rest) then scan.takeColon
  else if c == '*' then scan.takeAnchor "while scanning an alias" .alias
  else if c == '&' then scan.takeAnchor "while scanning an anchor" .anchor
  else if c == '!' then scan.takeTag
  else if c == '|' && !flow then scan.takeBlock true
  else if c == '>' && !flow then scan.takeBlock false
  else if c == '\'' || c == '"' then scan.takeQuoted c
  else if startsPlain flow c rest then scan.takePlain
  else .error ⟨"found character that cannot start any token", "while scanning for the next token"⟩

/-- One step: moves to the next token and takes it. -/
def step (scan : Scan) : Scans := do
  let scan := scan.skipGaps (scan.limit + 1)
  let scan ← scan.dropStale
  let scan := scan.closeBlocks scan.cursor.column
  match scan.cursor.rest with
  | [] => scan.takeEnd
  | c :: rest => scan.takeToken c rest

/-! ### All tokens -/

/-- The tokens that are settled: those before the first place where a key may have started. -/
def settled (scan : Scan) : List Token :=
  let numbers := scan.candidates.filterMap fun candidate => candidate.map Candidate.number
  scan.tokens.toList.take (numbers.foldl min scan.tokens.size)

/-- Scans on to the end of the text, or to the first fault. With a fault come the tokens that were
settled before it. -/
def run : Nat → Scan → List Token × Option Fault
  | 0, scan => (scan.tokens.toList, none)
  | fuel + 1, scan =>
    match scan.step with
    | .ok next =>
      if next.tokens.back? = some .streamEnd then (next.tokens.toList, none) else run fuel next
    | .error fault =>
      match scan.dropStale with
      | .ok fresh => (fresh.settled, some fault)
      | .error fault => (scan.settled, some fault)

end Scan

/-- The first character that no text may hold, and its distance from the start in octets. -/
def forbidden? (offset : Nat) : List Char → Option Nat
  | [] => none
  | c :: rest => if isAllowed c then forbidden? (offset + c.utf8Size) rest else some offset

/-- The fault of a text that holds a control character. -/
def controlFault (offset : Nat) : Fault :=
  ⟨"control characters are not allowed"
    ++ (if offset = 0 then "" else " at position " ++ toString offset), ""⟩

/-- The tokens of a text, and the fault that ends them if there is one. -/
def tokens (text : String) : List Token × Option Fault :=
  let cs := text.toList
  match forbidden? 0 cs with
  | some offset => ([], some (controlFault offset))
  | none => ({ cursor := { rest := cs }, limit := cs.length } : Scan).run (cs.length + 2)

end Protoschema.Yaml
