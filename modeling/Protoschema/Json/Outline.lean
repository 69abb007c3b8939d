import Protoschema.Json.Value
/-!
The outline of a JSON text that may be broken. What stands before the first fault is kept as a tree;
the fault stands where the text stops to make sense. A reader who wants a value, and one who only
passes over it, find different faults in the same place, so the outline keeps both.
-/

namespace Protoschema.Json

/-- What can be wrong with a JSON text. -/
inductive Fault
  | endInValue
  | endInString
  | endInList
  | endInObject
  | expectedColon
  | expectedListComma
  | expectedObjectComma
  | expectedWord
  | expectedValue
  | invalidEscape
  | invalidNumber
  | numberOutOfRange
  | loneSurrogate
  | unfinishedPair
  | controlCharacter
  | keyNotString
  | trailingComma
  | trailingCharacters
  | tooDeep
deriving DecidableEq, Repr

/-- The wording of a fault. -/
def Fault.message : Fault → String
  | .endInValue => "EOF while parsing a value"
  | .endInString => "EOF while parsing a string"
  | .endInList => "EOF while parsing a list"
  | .endInObject => "EOF while parsing an object"
  | .expectedColon => "expected `:`"
  | .expectedListComma => "expected `,` or `]`"
  | .expectedObjectComma => "expected `,` or `\x7d`"
  | .expectedWord => "expected ident"
  | .expectedValue => "expected value"
  | .invalidEscape => "invalid escape"
  | .invalidNumber => "invalid number"
  | .numberOutOfRange => "number out of range"
  | .loneSurrogate => "lone leading surrogate in hex escape"
  | .unfinishedPair => "unexpected end of hex escape"
  | .controlCharacter => "control character (\\u0000-\\u001F) found while parsing a string"
  | .keyNotString => "key must be a string"
  | .trailingComma => "trailing comma"
  | .trailingCharacters => "trailing characters"
  | .tooDeep => "recursion limit exceeded"

/-- A string or a number of the text: what it reads as, and the fault that stops a reader who only
passes over it. -/
structure Token (α : Type) where
  value : Except Fault α
  passed : Option Fault := none
deriving Repr

/-- How the items of a list or the members of an object come to an end. -/
inductive Stop
  /-- The closing bracket. -/
  | closed
  /-- The text ends after an item, or before the first. -/
  | ends
  /-- Neither a comma nor the closing bracket follows an item. -/
  | stray
  /-- A comma right before the closing bracket. -/
  | commaCloses
  /-- The text ends after a comma. -/
  | commaEnds
  /-- A member does not start with a string. -/
  | notKey
  /-- A key that is broken itself. -/
  | brokenKey (key : Token String)
  /-- A key that no colon follows; the text may end there. -/
  | noColon (key : Token String) (textEnds : Bool)
  /-- The last item is broken. -/
  | cut
deriving Repr

/-- A JSON text as far as it makes sense. -/
inductive Outline
  | null
  | flag (value : Bool)
  | number (token : Token Number)
  | text (token : Token String)
  | list (items : List Outline) (stop : Stop)
  | object (members : List (Token String × Outline)) (stop : Stop)
  /-- A word that starts like `null`, `true` or `false`. -/
  | brokenWord (fault : Fault)
  /-- The text ends where a value is due. -/
  | nothing
  /-- Something that no value starts with. -/
  | junk
deriving Repr, Inhabited

/-- The blanks between tokens. -/
def isBlank (c : Char) : Bool :=
  c == ' ' || c == '\n' || c == '\t' || c == '\r'

/-- The text from its next token on. -/
def skipBlanks (cs : List Char) : List Char :=
  cs.dropWhile isBlank

/-! ### Words -/

/-- Reads the rest of a word: the outline, and the text behind it if the word is whole. -/
def scanWord (whole : Outline) : List Char → List Char → Outline × Option (List Char)
  | [], rest => (whole, some rest)
  | _ :: _, [] => (.brokenWord .endInValue, none)
  | letter :: letters, c :: rest =>
    if c = letter then scanWord whole letters rest else (.brokenWord .expectedWord, none)

/-! ### Numbers -/

/-- A number as it is written. -/
structure Numeral where
  negative : Bool
  whole : List Char
  fraction : List Char
  /-- The sign and the digits of the exponent, if there is one. -/
  exponent : Option (Bool × List Char)

/-- The largest significand that is kept exactly. -/
def significandLimit : Nat := 0xFFFFFFFFFFFFFFFF

/-- Takes digits into a significand while it stays within the limit; gives it with the number of
digits taken. -/
def absorb : Nat → List Char → Nat × Nat
  | significand, [] => (significand, 0)
  | significand, c :: rest =>
    let next := 10 * significand + (c.toNat - '0'.toNat)
    if next ≤ significandLimit then
      let (final, taken) := absorb next rest
      (final, taken + 1)
    else (significand, 0)

/-- The value of digits as a natural number. -/
def natOfDigits (digits : List Char) : Nat :=
  digits.foldl (fun n c => 10 * n + (c.toNat - '0'.toNat)) 0

/-- Divides by `10 ^ 308` until the power that is left has a name of its own, then scales. Three
steps take every significand to zero. -/
def scaleReal : Nat → Float → Int → Except Fault Float
  | 0, _, _ => .ok 0.0
  | fuel + 1, value, power =>
    if power.natAbs ≤ 308 then
      let scale := Float.ofScientific 1 false power.natAbs
      if 0 ≤ power then
        let scaled := value * scale
        if scaled.isInf then .error .numberOutOfRange else .ok scaled
      else .ok (value / scale)
    else if value == 0.0 then .ok value
    else if 0 ≤ power then .error .numberOutOfRange
    else scaleReal fuel (value / Float.ofScientific 1 false 308) (power + 308)

/-- The exponents that are told apart. -/
def exponentLimit : Nat := 0x7FFFFFFF

namespace Numeral

/-- The value of a numeral that is no whole number, or one beyond 64 bits: the significand, cut to
64 bits, is scaled by one power of ten. -/
def toReal (numeral : Numeral) : Except Fault Float := do
  let (leading, taken) := absorb 0 numeral.whole
  let (significand, decimals) := absorb leading numeral.fraction
  let start : Int := (numeral.whole.length - taken : Nat) - (decimals : Int)
  let magnitude ←
    match numeral.exponent with
    | none => scaleReal 5 significand.toUInt64.toFloat start
    | some (positive, digits) =>
      let size := natOfDigits digits
      if size > exponentLimit then
        if positive && significand != 0 then .error .numberOutOfRange else .ok 0.0
      else
        let power := start + (if positive then (size : Int) else -(size : Int))
        scaleReal 5 significand.toUInt64.toFloat power
  return if numeral.negative then -magnitude else magnitude

/-- The number that a numeral stands for: whole numbers of 64 bits stay whole, `-0` apart. -/
def toNumber (numeral : Numeral) : Except Fault Number := do
  let size := natOfDigits numeral.whole
  if numeral.fraction.isEmpty && numeral.exponent.isNone && size ≤ significandLimit then
    if !numeral.negative then return .whole size
    else if size = 0 ∨ 0x8000000000000000 < size then return .real (-(size.toUInt64.toFloat))
    else return .whole (-(size : Int))
  else
    return .real (← numeral.toReal)

end Numeral

/-- A numeral that is broken off: the fault for a reader of the value, who tells the end of the
text from a wrong character, and for one who passes over it. -/
def brokenNumber (rest : List Char) : Outline × Option (List Char) :=
  let fault := if rest.isEmpty then Fault.endInValue else .invalidNumber
  (.number ⟨.error fault, some .invalidNumber⟩, none)

/-- The outline of a whole numeral. -/
def numberOutline (numeral : Numeral) (rest : List Char) : Outline × Option (List Char) :=
  (.number ⟨numeral.toNumber, none⟩, some rest)

/-- Reads the exponent of a numeral, if there is one. -/
def scanExponent (negative : Bool) (whole fraction : List Char) (cs : List Char) :
    Outline × Option (List Char) :=
  match cs with
  | c :: rest =>
    if c = 'e' ∨ c = 'E' then
      let (positive, digits) := match rest with
        | '+' :: more => (true, more)
        | '-' :: more => (false, more)
        | more => (true, more)
      match digits.takeWhile Char.isDigit with
      | [] => brokenNumber digits
      | exponent =>
        numberOutline ⟨negative, whole, fraction, some (positive, exponent)⟩
          (digits.dropWhile Char.isDigit)
    else numberOutline ⟨negative, whole, fraction, none⟩ cs
  | [] => numberOutline ⟨negative, whole, fraction, none⟩ cs

/-- Reads what follows the whole part of a numeral. -/
def scanFraction (negative : Bool) (whole : List Char) (cs : List Char) :
    Outline × Option (List Char) :=
  match cs with
  | '.' :: rest =>
    match rest.takeWhile Char.isDigit with
    | [] => brokenNumber rest
    | fraction => scanExponent negative whole fraction (rest.dropWhile Char.isDigit)
  | rest => scanExponent negative whole [] rest

/-- Reads a numeral from its first digit on. -/
def scanNumber (negative : Bool) (cs : List Char) : Outline × Option (List Char) :=
  match cs with
  | '0' :: rest =>
    match rest with
    | c :: _ =>
      if c.isDigit then (.number ⟨.error .invalidNumber, some .invalidNumber⟩, none)
      else scanFraction negative ['0'] rest
    | [] => scanFraction negative ['0'] rest
  | rest =>
    match rest.takeWhile Char.isDigit with
    | [] => brokenNumber rest
    | whole => scanFraction negative whole (rest.dropWhile Char.isDigit)

/-! ### Strings -/

/-- The value of a hexadecimal digit. -/
def hexDigit? (c : Char) : Option Nat :=
  if c.isDigit then some (c.toNat - '0'.toNat)
  else if 'a' ≤ c ∧ c ≤ 'f' then some (c.toNat - 'a'.toNat + 10)
  else if 'A' ≤ c ∧ c ≤ 'F' then some (c.toNat - 'A'.toNat + 10)
  else none

/-- Four hexadecimal digits and the text behind them. -/
def hex4? : List Char → Option (Nat × List Char)
  | a :: b :: c :: d :: rest => do
    let a ← hexDigit? a
    let b ← hexDigit? b
    let c ← hexDigit? c
    let d ← hexDigit? d
    return (((a * 16 + b) * 16 + c) * 16 + d, rest)
  | _ => none

theorem length_of_hex4? {cs : List Char} {n : Nat} {rest : List Char}
    (found : hex4? cs = some (n, rest)) : rest.length < cs.length := by
  match cs with
  | [] | [_] | [_, _] | [_, _, _] => simp [hex4?] at found
  | a :: b :: c :: d :: tail =>
    simp only [hex4?, Option.bind_eq_bind, Option.pure_def, Option.bind_eq_some_iff,
      Option.some.injEq, Prod.mk.injEq] at found
    obtain ⟨_, _, _, _, _, _, _, _, _, rfl⟩ := found
    simp only [List.length_cons]
    omega

/-- Why four hexadecimal digits cannot be read: too few bytes are left, or one is no such digit. -/
def hexFault (cs : List Char) : Fault :=
  if (String.ofList (cs.take 4)).utf8ByteSize < 4 then .endInString else .invalidEscape

/-- The second half of a surrogate pair: its value and the text behind it. -/
def lowSurrogate? (cs : List Char) : Except Fault (Nat × List Char) :=
  match cs with
  | [] => .error .endInString
  | '\\' :: [] => .error .endInString
  | '\\' :: 'u' :: rest =>
    match hex4? rest with
    | none => .error (hexFault rest)
    | some (n, after) =>
      if 0xDC00 ≤ n ∧ n ≤ 0xDFFF then .ok (n, after) else .error .loneSurrogate
  | _ => .error .unfinishedPair

theorem length_of_lowSurrogate? {cs : List Char} {n : Nat} {rest : List Char}
    (found : lowSurrogate? cs = .ok (n, rest)) : rest.length < cs.length := by
  unfold lowSurrogate? at found
  split at found
  · simp at found
  · simp at found
  · split at found
    · simp at found
    · rename_i _ text low after hex
      split at found
      · simp only [Except.ok.injEq, Prod.mk.injEq] at found
        have shorter := length_of_hex4? hex
        obtain ⟨_, rfl⟩ := found
        simp only [List.length_cons]
        omega
      · simp at found
  · simp at found

/-- The character that a one-letter escape stands for. -/
def shortEscape? (c : Char) : Option Char :=
  match c with
  | '"' => some '"'
  | '\\' => some '\\'
  | '/' => some '/'
  | 'b' => some '\x08'
  | 'f' => some '\x0c'
  | 'n' => some '\n'
  | 'r' => some '\r'
  | 't' => some '\t'
  | _ => none

/-- Adds a character to what has been read so far, in reverse. -/
def pushChar (c : Char) (read : Except Fault (List Char)) : Except Fault (List Char) :=
  read.map (c :: ·)

/-- Keeps the first fault. -/
def orFault (read : Except Fault (List Char)) (fault : Fault) : Except Fault (List Char) :=
  read.bind fun _ => .error fault

/-- A string that is broken for every reader. -/
def brokenString (read : Except Fault (List Char)) (fault : Fault) :
    Token String × Option (List Char) :=
  (⟨(orFault read fault).map fun cs => String.ofList cs.reverse, some fault⟩, none)

/-- Reads a string behind its opening quote. A surrogate without its partner is a fault for a reader
of the value, and none for one who passes over it. -/
def scanString (read : Except Fault (List Char)) (cs : List Char) :
    Token String × Option (List Char) :=
  match cs with
  | [] => brokenString read .endInString
  | '"' :: rest => (⟨read.map fun cs => String.ofList cs.reverse, none⟩, some rest)
  | '\\' :: [] => brokenString read .endInString
  | '\\' :: 'u' :: rest =>
    match _hex : hex4? rest with
    | none => brokenString read (hexFault rest)
    | some (n, after) =>
      if 0xDC00 ≤ n ∧ n ≤ 0xDFFF then scanString (orFault read .loneSurrogate) after
      else if 0xD800 ≤ n ∧ n ≤ 0xDBFF then
        match _low : lowSurrogate? after with
        | .ok (m, behind) =>
          scanString
            (pushChar (Char.ofNat (0x10000 + (n - 0xD800) * 0x400 + (m - 0xDC00))) read) behind
        | .error fault => scanString (orFault read fault) after
      else scanString (pushChar (Char.ofNat n) read) after
  | '\\' :: c :: rest =>
    match shortEscape? c with
    | some meant => scanString (pushChar meant read) rest
    | none => brokenString read .invalidEscape
  | c :: rest =>
    if c.toNat < 0x20 then brokenString read .controlCharacter
    else scanString (pushChar c read) rest
termination_by cs.length
decreasing_by
  · have shorter := length_of_hex4? _hex
    simp only [List.length_cons]
    omega
  · have shorter := length_of_hex4? _hex
    have shortest := length_of_lowSurrogate? _low
    simp only [List.length_cons]
    omega
  · have shorter := length_of_hex4? _hex
    simp only [List.length_cons]
    omega
  · have shorter := length_of_hex4? _hex
    simp only [List.length_cons]
    omega
  · simp only [List.length_cons]
    omega
  · simp only [List.length_cons]
    omega

/-! ### Lists and objects -/

mutual

/-- The outline of the value that the text starts with, and the text behind it if the value is
whole. The first argument bounds the number of nested steps. -/
def scanValue : Nat → List Char → Outline × Option (List Char)
  | 0, _ => (.junk, none)
  | fuel + 1, cs =>
    match skipBlanks cs with
    | [] => (.nothing, none)
    | 'n' :: rest => scanWord .null ['u', 'l', 'l'] rest
    | 't' :: rest => scanWord (.flag true) ['r', 'u', 'e'] rest
    | 'f' :: rest => scanWord (.flag false) ['a', 'l', 's', 'e'] rest
    | '"' :: rest =>
      let (token, behind) := scanString (.ok []) rest
      (.text token, behind)
    | '-' :: rest => scanNumber true rest
    | '[' :: rest =>
      match skipBlanks rest with
      | [] => (.list [] .ends, none)
      | ']' :: behind => (.list [] .closed, some behind)
      | inside =>
        let (items, stop, behind) := scanItems fuel inside
        (.list items stop, behind)
    | '\x7b' :: rest =>
      match skipBlanks rest with
      | [] => (.object [] .ends, none)
      | '\x7d' :: behind => (.object [] .closed, some behind)
      | inside =>
        let (members, stop, behind) := scanMembers fuel inside
        (.object members stop, behind)
    | c :: rest => if c.isDigit then scanNumber false (c :: rest) else (.junk, none)

/-- The items of a list from the first one on. -/
def scanItems : Nat → List Char → List Outline × Stop × Option (List Char)
  | 0, _ => ([], .cut, none)
  | fuel + 1, cs =>
    match scanValue fuel cs with
    | (item, none) => ([item], .cut, none)
    | (item, some rest) =>
      match skipBlanks rest with
      | [] => ([item], .ends, none)
      | ']' :: behind => ([item], .closed, some behind)
      | ',' :: more =>
        match skipBlanks more with
        | [] => ([item], .commaEnds, none)
        | ']' :: _ => ([item], .commaCloses, none)
        | next =>
          let (items, stop, behind) := scanItems fuel next
          (item :: items, stop, behind)
      | _ => ([item], .stray, none)

/-- The members of an object from the first one on. -/
def scanMembers : Nat → List Char → List (Token String × Outline) × Stop × Option (List Char)
  | 0, _ => ([], .cut, none)
  | fuel + 1, cs =>
    match cs with
    | '"' :: inside =>
      match scanString (.ok []) inside with
      | (key, none) => ([], .brokenKey key, none)
      | (key, some rest) =>
        match skipBlanks rest with
        | [] => ([], .noColon key true, none)
        | ':' :: afterColon =>
          match scanValue fuel afterColon with
          | (value, none) => ([(key, value)], .cut, none)
          | (value, some rest) =>
            match skipBlanks rest with
            | [] => ([(key, value)], .ends, none)
            | '\x7d' :: behind => ([(key, value)], .closed, some behind)
            | ',' :: more =>
              match skipBlanks more with
              | [] => ([(key, value)], .commaEnds, none)
              | '\x7d' :: _ => ([(key, value)], .commaCloses, none)
              | next =>
                let (members, stop, behind) := scanMembers fuel next
                ((key, value) :: members, stop, behind)
            | _ => ([(key, value)], .stray, none)
        | _ => ([], .noColon key false, none)
    | _ => ([], .notKey, none)

end

/-- The outline of the first value of a text. What follows it is not looked at. -/
def outline (text : String) : Outline :=
  (scanValue (2 * text.length + 2) text.toList).1

/-! ### Passing over a value -/

namespace Stop

/-- The fault at the end of a list that a reader wants. -/
def listFault? : Stop → Option Fault
  | .closed => none
  | .ends => some .endInList
  | .commaCloses => some .trailingComma
  | .commaEnds => some .endInValue
  | _ => some .expectedListComma

/-- The fault at the end of an object that a reader wants, the key of a last member apart. -/
def objectFault? : Stop → Option Fault
  | .closed => none
  | .ends => some .endInObject
  | .commaCloses => some .trailingComma
  | .commaEnds => some .endInValue
  | .notKey => some .keyNotString
  | _ => some .expectedObjectComma

/-- The fault at the end of a list that is passed over. -/
def passedListFault? : Stop → Option Fault
  | .closed => none
  | .ends => some .endInList
  | .commaCloses => some .expectedValue
  | .commaEnds => some .endInValue
  | _ => some .expectedListComma

/-- The fault at the end of an object that is passed over. -/
def passedObjectFault? : Stop → Option Fault
  | .closed => none
  | .ends | .commaEnds => some .endInObject
  | .commaCloses | .notKey => some .keyNotString
  | .brokenKey key => key.passed
  | .noColon _ textEnds => some (if textEnds then .endInObject else .expectedColon)
  | _ => some .expectedObjectComma

end Stop

mutual

/-- The first fault that stops a reader who passes over a value. -/
def Outline.passedFault? : Outline → Option Fault
  | .null | .flag _ => none
  | .number token => token.passed
  | .text token => token.passed
  | .list items stop => (passedItems items).or stop.passedListFault?
  | .object members stop => (passedMembers members).or stop.passedObjectFault?
  | .brokenWord fault => some fault
  | .nothing => some .endInValue
  | .junk => some .expectedValue

/-- The first fault among the items of a list. -/
def passedItems : List Outline → Option Fault
  | [] => none
  | item :: rest => item.passedFault?.or (passedItems rest)

/-- The first fault among the members of an object. -/
def passedMembers : List (Token String × Outline) → Option Fault
  | [] => none
  | (key, value) :: rest => key.passed.or (value.passedFault?.or (passedMembers rest))

end

end Protoschema.Json
