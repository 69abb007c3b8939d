import Protoschema.Decimal.Shortest
import Protoschema.Reading.Layout
import Protoschema.Text.Quoted
import Protoschema.Yaml.Source
/-!
What a plain scalar means: nothing, a flag, a number, or its own text. Whole numbers are written in
base ten, or in base two, eight or sixteen behind a mark; those that start with a needless zero are
texts.
-/

namespace Protoschema.Yaml

/-- What a scalar means. -/
inductive Meaning
  | null
  | flag (value : Bool)
  /-- A whole number of 64 bits, signed or not. -/
  | whole (value : Int)
  /-- A whole number of up to 128 bits. -/
  | wide (value : Int)
  | real (value : Float)
  | text (value : String)
deriving Repr

/-! ### Words -/

/-- Whether a text stands for nothing. -/
def isNullWord (text : String) : Bool :=
  ["", "~", "null", "Null", "NULL"].contains text

/-- The flag that a text stands for. -/
def flagWord? (text : String) : Option Bool :=
  if ["true", "True", "TRUE"].contains text then some true
  else if ["false", "False", "FALSE"].contains text then some false
  else none

/-! ### Whole numbers -/

/-- The value of digits in a base, if there are any and all belong to it. -/
def digitsIn? (base : Nat) (cs : List Char) : Option Nat :=
  if cs.isEmpty then none
  else cs.foldlM (fun n c => (Json.hexDigit? c).bind fun digit =>
    if digit < base then some (base * n + digit) else none) 0

/-- The value of a number without sign, in the base that its mark names. -/
def magnitude? (cs : List Char) : Option Nat :=
  match cs with
  | '0' :: 'x' :: rest => digitsIn? 16 rest
  | '0' :: 'o' :: rest => digitsIn? 8 rest
  | '0' :: 'b' :: rest => digitsIn? 2 rest
  | '0' :: _ :: _ => none
  | cs => digitsIn? 10 cs

/-- The whole number that a text stands for. -/
def whole? (cs : List Char) : Option Int :=
  match cs with
  | '-' :: rest => (magnitude? rest).map fun n => -(n : Int)
  | '+' :: rest => (magnitude? rest).map Int.ofNat
  | cs => (magnitude? cs).map Int.ofNat

/-! ### Reals -/

/-- The value of decimal digits, none of which stand for zero. -/
def decimalDigits (cs : List Char) : Nat :=
  cs.foldl (fun n c => 10 * n + (c.toNat - '0'.toNat)) 0

/-- The exponent behind a mantissa. -/
def exponent? (cs : List Char) : Option Int :=
  match cs with
  | [] => some 0
  | mark :: rest =>
    if mark == 'e' || mark == 'E' then
      let (sign, digits) : Int × List Char := match rest with
        | '-' :: digits => (-1, digits)
        | '+' :: digits => (1, digits)
        | digits => (1, digits)
      if digits.isEmpty || !digits.all Char.isDigit then none
      else some (sign * (decimalDigits digits : Int))
    else none

/-- The number nearest to `digits * 10 ^ exponent`, and infinity if there is none. -/
def nearest (digits : Nat) (exponent : Int) : Float :=
  let leading := exponent + (Nat.toDigits 10 digits).length
  if digits = 0 ∨ leading < -400 then 0
  else if 400 < leading then 1.0 / 0.0
  else Float.ofScientific digits (exponent < 0) exponent.natAbs

/-- The magnitude of a decimal number, with or without a fraction and an exponent. -/
def decimal? (cs : List Char) : Option Float :=
  let whole := cs.takeWhile Char.isDigit
  let rest := cs.dropWhile Char.isDigit
  let (fraction, rest) := match rest with
    | '.' :: rest => (rest.takeWhile Char.isDigit, rest.dropWhile Char.isDigit)
    | rest => ([], rest)
  if whole.isEmpty && fraction.isEmpty then none
  else (exponent? rest).map fun exponent =>
    nearest (decimalDigits (whole ++ fraction)) (exponent - fraction.length)

/-- Whether a text looks like a whole number with a needless zero in front. -/
def hasNeedlessZero (cs : List Char) : Bool :=
  let digits := match cs with
    | '-' :: rest => rest
    | '+' :: rest => rest
    | cs => cs
  1 < digits.length && digits.head? == some '0' && digits.all Char.isDigit

/-- The real number that a text stands for; one too great for 64 bits is a text. -/
def real? (cs : List Char) : Option Float :=
  if ["nan", "NaN", "NAN"].any (cs = '.' :: ·.toList) then some (0.0 / 0.0)
  else
    let (negative, unsigned) := match cs with
      | '-' :: rest => (true, rest)
      | '+' :: rest => (false, rest)
      | cs => (false, cs)
    let signed (value : Float) : Float := if negative then -value else value
    if ["inf", "Inf", "INF"].any (unsigned = '.' :: ·.toList) then some (signed (1.0 / 0.0))
    else (decimal? unsigned).bind fun value =>
      if value.isFinite then some (signed value) else none

/-! ### Meanings -/

/-- Whether a whole number fits into 64 bits, signed or not. -/
def fitsWord (value : Int) : Bool :=
  -0x8000000000000000 ≤ value && value < 0x10000000000000000

/-- Whether a whole number fits into 128 bits, signed or not. -/
def fitsDoubleWord (value : Int) : Bool :=
  -0x80000000000000000000000000000000 ≤ value && value < 0x100000000000000000000000000000000

/-- The whole number that a text stands for, if it is not too long. -/
def wholeMeaning? (text : String) : Option Meaning :=
  (whole? text.toList).bind fun value =>
    if fitsWord value then some (.whole value)
    else if fitsDoubleWord value then some (.wide value)
    else none

/-- The real number that a text stands for. -/
def realMeaning? (text : String) : Option Meaning :=
  if hasNeedlessZero text.toList then none else (real? text.toList).map .real

/-- What a plain scalar without a tag means. -/
def plainMeaning (text : String) : Meaning :=
  if isNullWord text then .null
  else
    match flagWord? text with
    | some value => .flag value
    | none =>
      ((wholeMeaning? text).orElse fun _ => realMeaning? text).getD (.text text)

/-- The tag of one of the core kinds. -/
def coreTag (kind : String) : Octets :=
  coreStart ++ kind.toList.map fun c => c.toNat.toUInt8

/-- Whether a tag is one of the text's own. -/
def isOwn (tag : Octets) : Bool :=
  tag.head? == some bang

/-- The name of a tag of the text's own, if it is a text: what follows the exclamation mark, or the
mark if nothing does. -/
def ownTag? (tag : Option Octets) : Option String :=
  (tag.filter isOwn).bind fun tag =>
    String.fromUTF8? ⟨(if tag.length = 1 then tag else tag.drop 1).toArray⟩

/-- What a scalar means, or why its tag does not fit it. -/
def meaning (tag : Option Octets) (text : String) (style : Style) :
    Except Reading.Cause Meaning :=
  let fit (wanted : String) : Option Meaning → Except Reading.Cause Meaning
    | some found => .ok found
    | none => .error (.wrongValue ("string " ++ Text.quoted text) wanted)
  match tag with
  | none => .ok (if style = .plain then plainMeaning text else .text text)
  | some tag =>
    if tag = coreTag "bool" then fit "a boolean" ((flagWord? text).map .flag)
    else if tag = coreTag "int" then fit "an integer" (wholeMeaning? text)
    else if tag = coreTag "float" then fit "a float" ((real? text.toList).map .real)
    else if tag = coreTag "null" then
      fit "null" (if text != "" && isNullWord text then some .null else none)
    else if isOwn tag && style = .plain then .ok (plainMeaning text)
    else .ok (.text text)

/-- A real number in the words of a message. -/
def realText (value : Float) : String :=
  if value.isNaN then "NaN"
  else
    let sign := if value.toBits < 0x8000000000000000 then "" else "-"
    if value.isInf then sign ++ "inf"
    else
      match Binary.ofBits? value.toBits with
      | none => sign ++ "0.0"
      | some number => sign ++ String.ofList (Decimal.shortest number).positional

/-- What was found, in the words of a message. -/
def Meaning.describe : Meaning → String
  | .null => "unit value"
  | .flag value => "boolean `" ++ (if value then "true" else "false") ++ "`"
  | .whole value => "integer `" ++ toString value ++ "`"
  | .wide value =>
    "integer `" ++ toString value ++ (if value < 0 then "` as i128" else "` as u128")
  | .real value => "floating point `" ++ realText value ++ "`"
  | .text value => "string " ++ Text.quoted value

end Protoschema.Yaml
