import Protoschema.Json.Outline
import Protoschema.Yaml.Token
/-!
The marks beside the content of a YAML text: directives, tags and anchors.
-/

namespace Protoschema.Yaml

/-! ### Directives -/

/-- The number at the cursor. -/
def versionNumber (cursor : Cursor) : Except Fault (Nat × Cursor) :=
  let digits := cursor.rest.takeWhile Char.isDigit
  if digits.isEmpty then
    .error ⟨"did not find expected version number", "while scanning a %YAML directive"⟩
  else if 9 < digits.length then
    .error ⟨"found extremely long version number", "while scanning a %YAML directive"⟩
  else
    .ok (digits.foldl (fun n c => 10 * n + (c.toNat - '0'.toNat)) 0,
      cursor.skipMany digits.length)

/-- The version that a directive states. -/
def versionDirective (cursor : Cursor) : Except Fault (Token × Cursor) := do
  let (major, cursor) ← versionNumber (cursor.skipWhile isBlank)
  if cursor.rest.head? != some '.' then
    .error ⟨"did not find expected digit or '.' character", "while scanning a %YAML directive"⟩
  else
    let (minor, cursor) ← versionNumber cursor.skip
    return (.version major minor, cursor)

/-! ### Tags -/

/-- Characters of a tag: those of a URI, without the marks of brackets where `strict` asks so. -/
def isTagChar (strict : Bool) (c : Char) : Bool :=
  isWord c || ";/?:@&=+$.!~*'()%".toList.contains c
    || (!strict && (c == ',' || c == '[' || c == ']'))

/-- One octet written behind a percent sign. -/
def octet? : List Char → Option Nat
  | '%' :: high :: low :: _ =>
    match Json.hexDigit? high, Json.hexDigit? low with
    | some high, some low => some (16 * high + low)
    | _, _ => none
  | _ => none

/-- How many octets a character takes, given its first one; zero if none starts so. -/
def octetCount (first : Nat) : Nat :=
  if first < 0x80 then 1
  else if 0xC0 ≤ first ∧ first < 0xE0 then 2
  else if 0xE0 ≤ first ∧ first < 0xF0 then 3
  else if 0xF0 ≤ first ∧ first < 0xF8 then 4
  else 0

/-- The further octets of a character. -/
def moreOctets (during : String) : Nat → List Char → Except Fault Octets
  | 0, _ => .ok []
  | count + 1, cs =>
    match octet? cs with
    | none => .error ⟨"did not find URI escaped octet", during⟩
    | some octet =>
      if octet / 64 = 2 then do return octet.toUInt8 :: (← moreOctets during count (cs.drop 3))
      else .error ⟨"found an incorrect trailing UTF-8 octet", during⟩

/-- The octets of a character that is written behind percent signs. -/
def escapedOctets (during : String) (cs : List Char) : Except Fault Octets :=
  match octet? cs with
  | none => .error ⟨"did not find URI escaped octet", during⟩
  | some first =>
    match octetCount first with
    | 0 => .error ⟨"found an incorrect leading UTF-8 octet", during⟩
    | count + 1 => do return first.toUInt8 :: (← moreOctets during count (cs.drop 3))

/-- The octets of a tag, with its percent escapes resolved. Its other characters are of ASCII. -/
def tagOctets (strict : Bool) (during : String) :
    Nat → Cursor → Octets → Except Fault (Octets × Cursor)
  | 0, cursor, read => .ok (read, cursor)
  | fuel + 1, cursor, read =>
    match cursor.rest with
    | '%' :: _ => do
      let octets ← escapedOctets during cursor.rest
      tagOctets strict during fuel (cursor.skipMany (3 * octets.length)) (read ++ octets)
    | c :: _ =>
      if isTagChar strict c then
        tagOctets strict during fuel cursor.skip (read ++ [c.toNat.toUInt8])
      else .ok (read, cursor)
    | [] => .ok (read, cursor)

/-- The octets of a tag that count: those before a zero. -/
def beforeZero (octets : Octets) : Octets :=
  octets.takeWhile (· != 0)

/-- A tag, or a part of one, that must not be left out. -/
def tagText (strict : Bool) (during : String) (cursor : Cursor) :
    Except Fault (Octets × Cursor) := do
  let (read, cursor) ← tagOctets strict during (cursor.rest.length + 1) cursor []
  if read.isEmpty then .error ⟨"did not find expected tag URI", during⟩
  else return (beforeZero read, cursor)

/-- A handle: word characters between exclamation marks, or up to where they end. -/
def tagHandle (directive : Bool) (cursor : Cursor) : Except Fault (List Char × Cursor) :=
  if cursor.rest.head? != some '!' then
    .error ⟨"did not find expected '!'",
      if directive then "while scanning a tag directive" else "while scanning a tag"⟩
  else
    let word := cursor.skip.rest.takeWhile isWord
    let cursor := cursor.skipMany (word.length + 1)
    if cursor.rest.head? == some '!' then .ok ('!' :: word ++ ['!'], cursor.skip)
    else if directive && !word.isEmpty then
      .error ⟨"did not find expected '!'", "while parsing a tag directive"⟩
    else .ok ('!' :: word, cursor)

/-- The handle that a directive gives a meaning to. -/
def tagDirective (cursor : Cursor) : Except Fault (Token × Cursor) := do
  let (handle, cursor) ← tagHandle true (cursor.skipWhile isBlank)
  if !(cursor.rest.head?.any isBlank) then
    .error ⟨"did not find expected whitespace", "while scanning a %TAG directive"⟩
  else
    let (start, cursor) ←
      tagText false "while parsing a %TAG directive" (cursor.skipWhile isBlank)
    if !atGap cursor.rest then
      .error ⟨"did not find expected whitespace or line break", "while scanning a %TAG directive"⟩
    else return (.tagHandle (String.ofList handle) start, cursor)

/-- The octet of the exclamation mark. -/
def bang : UInt8 := 0x21

/-- A tag: whole between angle brackets, or a handle with what follows it. A lone exclamation mark
is a whole tag. -/
def tagToken (inFlow : Bool) (cursor : Cursor) : Except Fault (Token × Cursor) := do
  let during := "while parsing a tag"
  let (handle, suffix, cursor) ←
    match cursor.rest with
    | '!' :: '<' :: _ => do
      let (suffix, cursor) ← tagText false during (cursor.skipMany 2)
      if cursor.rest.head? != some '>' then
        .error ⟨"did not find the expected '>'", "while scanning a tag"⟩
      else .ok ("", suffix, cursor.skip)
    | _ => do
      let (handle, next) ← tagHandle false cursor
      if 1 < handle.length && handle.getLast? == some '!' then
        let (suffix, cursor) ← tagText true during next
        .ok (String.ofList handle, suffix, cursor)
      else
        let (read, cursor) ← tagOctets true during (cursor.rest.length + 1) cursor.skip []
        let suffix := beforeZero read
        if suffix.isEmpty then .ok ("", [bang], cursor) else .ok ("!", suffix, cursor)
  if !atGap cursor.rest && !(inFlow && cursor.rest.head? == some ',') then
    .error ⟨"did not find expected whitespace or line break", "while scanning a tag"⟩
  else return (.tag handle suffix, cursor)

/-! ### Anchors -/

/-- Whether a text goes on as it can behind the name of an anchor or an alias. -/
def endsName (rest : List Char) : Bool :=
  atGap rest || rest.head?.any fun c => "?:,]\x7d%@`".toList.contains c

/-- The name of an anchor or an alias, behind its mark. -/
def anchorName (during : String) (cursor : Cursor) : Except Fault (String × Cursor) :=
  let name := cursor.rest.takeWhile isWord
  let next := cursor.skipMany name.length
  if name.isEmpty || !endsName next.rest then
    .error ⟨"did not find expected alphabetic or numeric character", during⟩
  else .ok (String.ofList name, next)

end Protoschema.Yaml
