import IrStream.Text.Numeral

/-!
# Binary floating-point numbers

The bit patterns of IEEE binary formats, without arithmetic on them.  A format counts its finite
numbers in *units*, the least positive one; bit patterns then grow with the number of units, one
step at a time.

* `BinaryFormat.nearest` is the bit pattern of the number nearest to a quotient, ties to the even
  pattern.
* `BinaryFormat.units` is the way back, for finite patterns.
* `doubleOfText?` reads a decimal numeral as a double, `singleOfDouble` rounds once more.
-/

set_option autoImplicit false

namespace IrStream

/-- The quotient rounded to the nearest integer, ties to the even one. -/
def divNearest (num den : Nat) : Nat :=
  let whole := num / den
  let twice := 2 * (num % den)
  if twice < den then whole
  else if den < twice then whole + 1
  else whole + whole % 2

/-- An IEEE binary format. -/
structure BinaryFormat where
  fractionBits : Nat
  exponentBits : Nat

namespace BinaryFormat

def single : BinaryFormat := ⟨23, 8⟩

def double : BinaryFormat := ⟨52, 11⟩

variable (format : BinaryFormat)

/-- Units that make one, as a power of two. -/
def unitsPerOne : Nat :=
  (1 <<< (format.exponentBits - 1)) - 2 + format.fractionBits

/-- Bit pattern of positive infinity. -/
def infinity : Nat :=
  ((1 <<< format.exponentBits) - 1) <<< format.fractionBits

/-- Bit pattern of a quiet number that is none. -/
def quietNan : Nat :=
  format.infinity + 1 <<< (format.fractionBits - 1)

/-- The bit of the sign. -/
def signBit : Nat :=
  1 <<< (format.fractionBits + format.exponentBits)

/-- Bit pattern of the number nearest to `num / den`, infinity beyond the largest. -/
def nearest (num den : Nat) : Nat :=
  let num := num <<< format.unitsPerOne
  let shift := Nat.log2 (num / den) - format.fractionBits
  min format.infinity (shift <<< format.fractionBits + divNearest num (den <<< shift))

/-- Units of the finite positive number with that bit pattern. -/
def units (bits : Nat) : Nat :=
  let exponent := bits >>> format.fractionBits
  let fraction := bits % 1 <<< format.fractionBits
  if exponent = 0 then fraction else (1 <<< format.fractionBits + fraction) <<< (exponent - 1)

/-- Bit pattern of the product of two natural numbers, each of them rounded first. -/
def product (left right : Nat) : Nat :=
  format.nearest (format.units (format.nearest left 1) * format.units (format.nearest right 1))
    (1 <<< (2 * format.unitsPerOne))

end BinaryFormat

/-! ## Decimal numerals -/

/-- A decimal numeral apart from its sign: `digits * 10 ^ exponent`. -/
structure DecimalNumeral where
  /-- The digits in front of and behind the point. -/
  digits : List Char
  exponent : Int

namespace DecimalNumeral

def isDigit (c : Char) : Bool :=
  '0' ≤ c && c ≤ '9'

/-- The exponent that stands behind the digits: nothing, or `e` and an integer. -/
def exponent? : List Char → Option Int
  | [] => some 0
  | e :: text =>
    if e = 'e' || e = 'E' then
      match text with
      | '+' :: text => (natural? 10 text).map Int.ofNat
      | '-' :: text => (natural? 10 text).map fun magnitude => -(magnitude : Int)
      | text => (natural? 10 text).map Int.ofNat
    else
      none

/-- Read digits with at most one point among, before or behind them, and an exponent. -/
def ofText? (text : List Char) : Option DecimalNumeral := do
  let whole := text.takeWhile isDigit
  let rest := text.dropWhile isDigit
  let (places, rest) :=
    match rest with
    | '.' :: rest => (rest.takeWhile isDigit, rest.dropWhile isDigit)
    | rest => ([], rest)
  if whole.isEmpty && places.isEmpty then none
  let exponent ← exponent? rest
  return ⟨whole ++ places, exponent - (places.length : Int)⟩

/-- Numbers at or above ten to this power are infinite in any format, those below its inverse
zero. -/
def extent : Int := 400

/-- Bit pattern of the double nearest to a numeral. -/
def toDouble (numeral : DecimalNumeral) : Nat :=
  let digits := numeral.digits.dropWhile (· == '0')
  let value := (natural? 10 digits).getD 0
  let magnitude := (digits.length : Int) + numeral.exponent
  if value = 0 || magnitude < -extent then 0
  else if extent < magnitude then BinaryFormat.double.infinity
  else
    BinaryFormat.double.nearest (value * Nat.pow 10 numeral.exponent.toNat)
      (Nat.pow 10 (-numeral.exponent).toNat)

end DecimalNumeral

/-- Bit pattern of the double that a text without a sign spells. -/
def magnitudeOfText? (text : List Char) : Option Nat :=
  let lower := String.ofList (text.map Char.toLower)
  if lower = "inf" || lower = "infinity" then
    some BinaryFormat.double.infinity
  else if lower = "nan" then
    some BinaryFormat.double.quietNan
  else
    (DecimalNumeral.ofText? text).map (·.toDouble)

/-- Bit pattern of the double that a text spells: a decimal numeral, `inf`, `infinity` or `nan`, in
any case and with or without a sign. -/
def doubleOfText? : List Char → Option Nat
  | '+' :: text => magnitudeOfText? text
  | '-' :: text => (magnitudeOfText? text).map (BinaryFormat.double.signBit + ·)
  | text => magnitudeOfText? text

/-- Bit pattern of the single nearest to a double. -/
def singleOfDouble (bits : Nat) : Nat :=
  let sign := if bits < BinaryFormat.double.signBit then 0 else BinaryFormat.single.signBit
  let bits := bits % BinaryFormat.double.signBit
  sign +
    if BinaryFormat.double.infinity < bits then BinaryFormat.single.quietNan
    else if bits = BinaryFormat.double.infinity then BinaryFormat.single.infinity
    else
      BinaryFormat.single.nearest (BinaryFormat.double.units bits)
        (1 <<< BinaryFormat.double.unitsPerOne)

end IrStream
