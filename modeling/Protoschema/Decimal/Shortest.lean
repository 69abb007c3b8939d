/-!
The shortest decimal that reads back as a given binary floating point number. A number is
`mantissa * 2 ^ exponent`; the reals that round to it form an interval, closed when the mantissa is
even. Of the decimals in it those with the fewest digits are kept, and of these the nearest.
-/

namespace Protoschema

/-- A decimal: `digits * 10 ^ exponent`. -/
structure Decimal where
  digits : Nat
  exponent : Int
deriving DecidableEq, Repr

/-- A positive binary floating point number, `mantissa * 2 ^ exponent`; `narrow` when the numbers
below it lie at half the distance of those above it. -/
structure Binary where
  mantissa : Nat
  exponent : Int
  narrow : Bool
deriving DecidableEq, Repr

namespace Binary

/-- The magnitude that 64 bits stand for, unless it is zero, infinite or not a number. -/
def ofBits? (bits : UInt64) : Option Binary :=
  let fraction : Nat := bits.toNat % 0x10000000000000
  let biased : Nat := bits.toNat / 0x10000000000000 % 0x800
  if biased = 2047 then none
  else if biased = 0 then
    if fraction = 0 then none else some ⟨fraction, -1074, false⟩
  else some ⟨0x10000000000000 + fraction, (biased : Int) - 1075, fraction = 0 ∧ 1 < biased⟩

/-- The two sides of a comparison between `count` quarters of the last binary place and
`digits * 10 ^ place`, brought to one denominator. -/
def scaled (number : Binary) (count digits : Nat) (place : Int) : Nat × Nat :=
  let power := number.exponent - 2
  (count * Nat.pow 2 power.toNat * Nat.pow 10 (-place).toNat,
    digits * Nat.pow 10 place.toNat * Nat.pow 2 (-power).toNat)

/-- Whether `digits * 10 ^ place` rounds to the number. -/
def rounds (number : Binary) (digits : Nat) (place : Int) : Bool :=
  let below := if number.narrow then 1 else 2
  let (low, value) := number.scaled (4 * number.mantissa - below) digits place
  let (high, value') := number.scaled (4 * number.mantissa + 2) digits place
  if number.mantissa % 2 = 0 then low ≤ value && value' ≤ high
  else low < value && value' < high

/-- The digits of the number on the grid of multiples of `10 ^ place`, rounded down. -/
def floorDigits (number : Binary) (place : Int) : Nat :=
  let (value, unit) := number.scaled (4 * number.mantissa) 1 place
  value / unit

/-- How the distance to `digits` compares with the distance to `digits + 1` on that grid. -/
def compareNeighbours (number : Binary) (digits : Nat) (place : Int) : Ordering :=
  let (value, low) := number.scaled (4 * number.mantissa) digits place
  let (_, high) := number.scaled (4 * number.mantissa) (digits + 1) place
  compare (value - low) (high - value)

/-- The nearer of the two neighbours on the grid, of those that round to the number; a tie goes to
the even digit. -/
def onGrid? (number : Binary) (place : Int) : Option Decimal :=
  let digits := number.floorDigits place
  let lower := number.rounds digits place && digits != 0
  let upper := number.rounds (digits + 1) place
  if lower && upper then
    match number.compareNeighbours digits place with
    | .lt => some ⟨digits, place⟩
    | .gt => some ⟨digits + 1, place⟩
    | .eq => some ⟨if digits % 2 = 0 then digits else digits + 1, place⟩
  else if lower then some ⟨digits, place⟩
  else if upper then some ⟨digits + 1, place⟩
  else none

/-- The exponent of the leading decimal digit, found downwards from `from` within `fuel` steps. -/
def leadingPlace (number : Binary) : Nat → Int → Int
  | 0, place => place
  | fuel + 1, place =>
    if number.floorDigits place = 0 then leadingPlace number fuel (place - 1) else place

/-- The first grid, from `place` down, that has a decimal which rounds to the number. -/
def firstOnGrid (number : Binary) : Nat → Int → Decimal
  | 0, place => ⟨number.floorDigits place, place⟩
  | fuel + 1, place =>
    match number.onGrid? place with
    | some decimal => decimal
    | none => firstOnGrid number fuel (place - 1)

end Binary

namespace Decimal

/-- Takes zeros off the end of the digits. -/
def strip : Nat → Decimal → Decimal
  | 0, decimal => decimal
  | fuel + 1, decimal =>
    if decimal.digits ≠ 0 ∧ decimal.digits % 10 = 0 then
      strip fuel ⟨decimal.digits / 10, decimal.exponent + 1⟩
    else decimal

/-- The shortest decimal that reads back as the number. The leading place of a 64-bit number lies
between 308 and -324, and 17 digits always suffice. -/
def shortest (number : Binary) : Decimal :=
  strip 20 (number.firstOnGrid 17 (number.leadingPlace 640 309))

/-- The digits as characters. -/
def digitChars (decimal : Decimal) : List Char :=
  Nat.toDigits 10 decimal.digits

/-- The exponent of the leading digit. -/
def leading (decimal : Decimal) : Int :=
  decimal.exponent + (decimal.digitChars.length : Int) - 1

/-- Positional notation, with `.0` when there is no fraction. -/
def positional (decimal : Decimal) : List Char :=
  let digits := decimal.digitChars
  if 0 ≤ decimal.exponent then
    digits ++ List.replicate decimal.exponent.toNat '0' ++ ['.', '0']
  else if 0 ≤ decimal.leading then
    let whole := decimal.leading.toNat + 1
    digits.take whole ++ '.' :: digits.drop whole
  else '0' :: '.' :: List.replicate (-decimal.leading - 1).toNat '0' ++ digits

/-- Scientific notation with a signed exponent. -/
def scientific (decimal : Decimal) : List Char :=
  let mantissa := match decimal.digitChars with
    | first :: second :: rest => first :: '.' :: second :: rest
    | digits => digits
  let exponent := decimal.leading
  mantissa ++ 'e' :: (if exponent < 0 then '-' else '+') :: Nat.toDigits 10 exponent.natAbs

end Decimal

end Protoschema
