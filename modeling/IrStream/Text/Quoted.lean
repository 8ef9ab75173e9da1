import IrStream.Text.Unprintable

/-!
# Quoted texts

Messages show an arbitrary text between double quotes, with backslashes before what would be
misread: quotes and backslashes themselves, `\t`, `\r` and `\n`, the zero byte as `\0`, and any
other character without a mark of its own as `\u{…}` with its number.
-/

set_option autoImplicit false

namespace IrStream

/-- The hexadecimal digits of a number, in lower case and without leading zeros. -/
def lowerHex (value : Nat) : List Char :=
  Nat.toDigits 16 value

/-- How a character is shown between double quotes. -/
def quotedChar (c : Char) : List Char :=
  match c with
  | '\x00' => ['\\', '0']
  | '\t' => ['\\', 't']
  | '\r' => ['\\', 'r']
  | '\n' => ['\\', 'n']
  | '"' => ['\\', '"']
  | '\\' => ['\\', '\\']
  | c => if isUnprintable c then ['\\', 'u', '\x7b'] ++ lowerHex c.toNat ++ ['\x7d'] else [c]

/-- A text between double quotes. -/
def quoted (text : String) : String :=
  "\"" ++ String.ofList (text.toList.flatMap quotedChar) ++ "\""

end IrStream
