import IrStream.Program.Error
import IrStream.Text.Binary

/-!
# Scanning JSON

The tokens of JSON, taken one by one from the front of a text.  A scan fails with the first fault
it meets: the end of the text (`JsonFault.endOfText`) or a character that cannot stand where it
does (`JsonFault.malformed`).

Texts and numbers are scanned in two ways.  `text` and `number` give the value, `skipText` and
`skipNumber` pass over one that nobody will use; these do not ask whether surrogates are paired or
whether a number is in range, and see a number that is cut short as malformed.
-/

set_option autoImplicit false

namespace IrStream

/-- A step of scanning, which takes characters from the front of what is left. -/
abbrev Scan (α : Type) : Type :=
  StateT (List Char) (Except JsonFault) α

namespace Scan

/-! ## Characters -/

/-- Blanks between tokens. -/
def isSpace (c : Char) : Bool :=
  c == ' ' || c == '\n' || c == '\t' || c == '\r'

def isDigit (c : Char) : Bool :=
  '0' ≤ c && c ≤ '9'

/-- The next character, which is left where it is. -/
def peek : Scan (Option Char) :=
  return (← get).head?

/-- The first character behind blanks, which is left where it is. -/
def peekToken : Scan (Option Char) := do
  modify (·.dropWhile isSpace)
  peek

/-- Pass over the next character. -/
def advance : Scan Unit :=
  modify List.tail

/-- Take the next character, of which there has to be one. -/
def next : Scan Char := do
  match ← get with
  | [] => throw .endOfText
  | c :: rest =>
    set rest
    return c

/-- Take exactly these characters. -/
def exactly : List Char → Scan Unit
  | [] => return
  | expected :: rest => do
    if (← next) ≠ expected then
      throw .malformed
    exactly rest

/-- Take all digits that stand next. -/
def digits : Scan (List Char) := do
  let text ← get
  set (text.dropWhile isDigit)
  return text.takeWhile isDigit

/-! ## Texts -/

/-- Value of a hexadecimal digit. -/
def hexValue? (c : Char) : Option Nat :=
  if '0' ≤ c && c ≤ '9' then some (c.toNat - '0'.toNat)
  else if 'a' ≤ c && c ≤ 'f' then some (c.toNat - 'a'.toNat + 10)
  else if 'A' ≤ c && c ≤ 'F' then some (c.toNat - 'A'.toNat + 10)
  else none

/-- Take the four hexadecimal digits of an escape.  If fewer than four bytes are left, the text
ends too early, whatever they are. -/
def hexEscape : Scan Nat := do
  match ← get with
  | a :: b :: c :: d :: rest =>
    match hexValue? a, hexValue? b, hexValue? c, hexValue? d with
    | some a, some b, some c, some d =>
      set rest
      return ((a * 16 + b) * 16 + c) * 16 + d
    | _, _, _, _ => throw .malformed
  | short =>
    if (String.ofList short).utf8ByteSize < 4 then throw .endOfText else throw .malformed

/-- The character that a one-letter escape stands for. -/
def simpleEscape? : Char → Option Char
  | '"' => some '"'
  | '\\' => some '\\'
  | '/' => some '/'
  | 'b' => some '\x08'
  | 'f' => some '\x0c'
  | 'n' => some '\n'
  | 'r' => some '\r'
  | 't' => some '\t'
  | _ => none

/-- A unit that is the first half of a pair. -/
def isHighSurrogate (unit : Nat) : Bool :=
  0xd800 ≤ unit && unit ≤ 0xdbff

/-- A unit that is the second half of a pair. -/
def isLowSurrogate (unit : Nat) : Bool :=
  0xdc00 ≤ unit && unit ≤ 0xdfff

/-- Take what follows `\u`.  Halves of a pair have to come in pairs. -/
def unicodeEscape : Scan Char := do
  let unit ← hexEscape
  if isLowSurrogate unit then
    throw .malformed
  if isHighSurrogate unit then
    exactly ['\\', 'u']
    let low ← hexEscape
    if !isLowSurrogate low then
      throw .malformed
    return Char.ofNat (0x10000 + (unit - 0xd800) * 0x400 + (low - 0xdc00))
  return Char.ofNat unit

/-- Take what follows a backslash. -/
def escape : Scan Char := do
  let c ← next
  if c = 'u' then
    unicodeEscape
  else
    match simpleEscape? c with
    | some value => return value
    | none => throw .malformed

/-- Pass over what follows a backslash. -/
def skipEscape : Scan Unit := do
  let c ← next
  if c = 'u' then
    let _ ← hexEscape
  else if (simpleEscape? c).isNone then
    throw .malformed

/-- Characters up to the closing quote, in turns that each take one. -/
def textRest : (turns : Nat) → Scan (List Char)
  | 0 => throw .endOfText
  | turns + 1 => do
    let c ← next
    if c = '"' then
      return []
    if c < ' ' then
      throw .malformed
    let value ← if c = '\\' then escape else pure c
    return value :: (← textRest turns)

/-- Take a text behind its opening quote. -/
def text : Scan String := do
  return String.ofList (← textRest ((← get).length + 1))

/-- Pass over characters up to the closing quote, in turns that each take one. -/
def skipTextRest : (turns : Nat) → Scan Unit
  | 0 => throw .endOfText
  | turns + 1 => do
    let c ← next
    if c = '"' then
      return
    if c < ' ' then
      throw .malformed
    if c = '\\' then
      skipEscape
    skipTextRest turns

/-- Pass over a text behind its opening quote. -/
def skipText : Scan Unit := do
  skipTextRest ((← get).length + 1)

/-! ## Numbers -/

/-- Digits of which there has to be one. -/
def someDigits : Scan (List Char) := do
  match ← digits with
  | [] => if (← get).isEmpty then throw .endOfText else throw .malformed
  | text => return text

/-- Digits before the point: a zero stands alone. -/
def wholeDigits : Scan (List Char) := do
  match ← someDigits with
  | '0' :: _ :: _ => throw .malformed
  | text => return text

/-- The number that digits spell. -/
def digitsValue (digits : List Char) : Nat :=
  digits.foldl (fun value c => value * 10 + (c.toNat - '0'.toNat)) 0

/-- Whether a significand times ten to the exponent is too large for a double.  Both factors are
rounded to doubles first, and no power of ten above 308 is tried. -/
def isOutOfRange (significand : Nat) (exponent : Int) : Bool :=
  significand != 0 && 0 < exponent &&
    (308 < exponent ||
      BinaryFormat.double.product significand (Nat.pow 10 exponent.toNat)
        == BinaryFormat.double.infinity)

/-- Digits from the front of `digits` as long as the number they continue stays below `2 ^ 64`,
and how many are left. -/
def significandOf : (value : Nat) → (digits : List Char) → Nat × Nat
  | value, [] => (value, 0)
  | value, c :: rest =>
    let longer := value * 10 + (c.toNat - '0'.toNat)
    if longer < UInt64.size then significandOf longer rest else (value, rest.length + 1)

/-- Take the exponent of a number, if there is one. -/
def exponent? : Scan (Option Int) := do
  match ← peek with
  | some 'e' | some 'E' =>
    advance
    let negative ← match ← peek with
      | some '-' => do
        advance
        pure true
      | some '+' => do
        advance
        pure false
      | _ => pure false
    let value := digitsValue (← someDigits)
    return some (if negative then -(value : Int) else (value : Int))
  | _ => return none

/-- Take the digits behind a point, if there is one. -/
def fraction? : Scan (Option (List Char)) := do
  match ← peek with
  | some '.' =>
    advance
    return some (← someDigits)
  | _ => return none

/-- Take a number.  The answer is its value if it is written as a natural number below `2 ^ 64`,
without a sign, a point or an exponent; no other number has a use.  One that is too large for a
double is malformed. -/
def number : Scan (Option Nat) := do
  let negative ← match ← peek with
    | some '-' => do
      advance
      pure true
    | _ => pure false
  let whole ← wholeDigits
  let fraction ← fraction?
  let exponent ← exponent?
  let (significand, dropped) := significandOf 0 whole
  if fraction.isNone && exponent.isNone && dropped = 0 then
    return if negative then none else some significand
  let places := fraction.getD []
  let (significand, unused) := significandOf significand places
  let shift := (dropped : Int) - ((places.length - unused : Nat) : Int)
  if isOutOfRange significand (shift + exponent.getD 0) then
    throw .malformed
  return none

/-- Pass over digits of which there has to be one. -/
def skipSomeDigits : Scan Unit := do
  if (← digits).isEmpty then
    throw .malformed

/-- Pass over a number. -/
def skipNumber : Scan Unit := do
  if (← peek) = some '-' then
    advance
  match ← digits with
  | [] => throw .malformed
  | '0' :: _ :: _ => throw .malformed
  | _ => pure ()
  if (← peek) = some '.' then
    advance
    skipSomeDigits
  match ← peek with
  | some 'e' | some 'E' =>
    advance
    match ← peek with
    | some '+' | some '-' => advance
    | _ => pure ()
    skipSomeDigits
  | _ => return

end Scan

end IrStream
