import IrStream.Wire.WordSize

/-!
# Primitive fields of the stream

Everything in a stream is built from four kinds of field: single bytes, little-endian integers of
a fixed width, size fields one word wide, and texts that end in a zero byte.  Two of them cannot
hold every value of their source: a size field is bounded, and a text must not contain the byte
that ends it.  `WordSize.fit` and `fitText` are those two conditions, `sizeField` and `textField`
the bytes of a value that meets them.
-/

set_option autoImplicit false

namespace IrStream

/-- Why a value has no field in the stream. -/
inductive FieldFault where
  /-- The text contains the byte that would end it. -/
  | interiorNul (text : String)
  /-- The value needs more than `width` bytes. -/
  | sizeOverflow (value : Nat) (width : Nat)
  deriving DecidableEq

/-- The low `count` bytes of `value`, lowest first. -/
def littleEndian : (count : Nat) → (value : Nat) → List UInt8
  | 0, _ => []
  | count + 1, value => UInt8.ofNat value :: littleEndian count (value / 256)

/-- The number that bytes spell, lowest first. -/
def ofLittleEndian : List UInt8 → Nat
  | [] => 0
  | byte :: rest => byte.toNat + 256 * ofLittleEndian rest

@[simp]
theorem length_littleEndian (count value : Nat) : (littleEndian count value).length = count := by
  induction count generalizing value with
  | zero => rfl
  | succ count ih => simp [littleEndian, ih]

/-- Writing keeps a number modulo the range of its width. -/
theorem ofLittleEndian_littleEndian (count value : Nat) :
    ofLittleEndian (littleEndian count value) = value % (1 <<< (8 * count)) := by
  induction count generalizing value with
  | zero => simp [littleEndian, ofLittleEndian, Nat.mod_one]
  | succ count ih =>
    have width : 1 <<< (8 * (count + 1)) = 256 * 1 <<< (8 * count) := by
      rw [Nat.one_shiftLeft, Nat.one_shiftLeft, Nat.mul_add, Nat.pow_add]
      exact Nat.mul_comm _ _
    rw [width, Nat.mod_mul]
    simp [littleEndian, ofLittleEndian, ih]

/-- The bytes of a text, in UTF-8. -/
def textBytes (text : String) : List UInt8 :=
  text.toUTF8.data.toList

/-- The four bytes of a 32-bit field. -/
def wordField (value : UInt32) : List UInt8 :=
  littleEndian 4 value.toNat

/-- The byte of a flag. -/
def flagField (flag : Bool) : List UInt8 :=
  [if flag then 1 else 0]

/-- The bytes of a text, and the zero byte that ends it. -/
def textField (text : String) : List UInt8 :=
  textBytes text ++ [0]

/-- A text has a field when none of its bytes is zero. -/
def fitText (text : String) : Except FieldFault String :=
  if 0 ∈ textBytes text then .error (.interiorNul text) else .ok text

namespace WordSize

/-- The bytes of a size field. -/
def sizeField (word : WordSize) (value : Nat) : List UInt8 :=
  littleEndian word.bytes value

/-- A number has a size field when it does not exceed the largest value of the width. -/
def fit (word : WordSize) (value : Nat) : Except FieldFault Nat :=
  if value ≤ word.maxValue then .ok value else .error (.sizeOverflow value word.bytes)

end WordSize

end IrStream
