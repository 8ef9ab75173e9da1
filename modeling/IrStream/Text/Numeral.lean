/-!
# Reading numerals

A numeral is one or more ASCII digits of its base.  `natural?` reads it as a number of any size;
`bounded?` is for numbers with a limit, and `signed?` for those that may begin with a sign.
-/

set_option autoImplicit false

namespace IrStream

/-- Value of a character as a digit of bases up to sixteen. -/
def digitValue? (c : Char) : Option Nat :=
  if '0' ≤ c && c ≤ '9' then some (c.toNat - '0'.toNat)
  else if 'a' ≤ c && c ≤ 'f' then some (c.toNat - 'a'.toNat + 10)
  else if 'A' ≤ c && c ≤ 'F' then some (c.toNat - 'A'.toNat + 10)
  else none

/-- Read digits after digits that spell `value`. -/
def continueNatural? (base : Nat) : (value : Nat) → List Char → Option Nat
  | value, [] => some value
  | value, c :: rest =>
    match digitValue? c with
    | some digit => if digit < base then continueNatural? base (value * base + digit) rest else none
    | none => none

/-- The number that a numeral spells. -/
def natural? (base : Nat) (text : List Char) : Option Nat :=
  if text.isEmpty then none else continueNatural? base 0 text

/-- The number below `limit` that a numeral spells. -/
def bounded? (base limit : Nat) (text : List Char) : Option Nat :=
  (natural? base text).filter (· < limit)

/-- The number below `limit` that a numeral spells, which may follow a plus sign. -/
def unsigned? (base limit : Nat) : List Char → Option Nat
  | '+' :: text => bounded? base limit text
  | text => bounded? base limit text

/-- The number from `-limit` up to but not including `limit` that a decimal numeral spells, which
may follow a sign. -/
def signed? (limit : Nat) : List Char → Option Int
  | '+' :: text => (bounded? 10 limit text).map Int.ofNat
  | '-' :: text => (bounded? 10 (limit + 1) text).map fun magnitude => -(magnitude : Int)
  | text => (bounded? 10 limit text).map Int.ofNat

end IrStream
