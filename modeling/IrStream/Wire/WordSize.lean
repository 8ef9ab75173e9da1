/-!
# The width of size fields

Counts, indices and bit offsets travel in *size fields*.  One stream uses one width for all of
them, four or eight bytes, and the same width is the only pointer width the stream can describe.
-/

set_option autoImplicit false

namespace IrStream

/-- Byte width of every size field in a stream. -/
inductive WordSize where
  | four
  | eight
  deriving DecidableEq

namespace WordSize

/-- Width in bytes. -/
def bytes : WordSize → Nat
  | four => 4
  | eight => 8

/-- Largest value a size field can hold. -/
def maxValue : WordSize → Nat
  | four => UInt32.size - 1
  | eight => UInt64.size - 1

/-- The width of that many bytes, if streams have it. -/
def ofBytes? : Nat → Option WordSize
  | 4 => some four
  | 8 => some eight
  | _ => none

/-- A size field has room for exactly the values its bytes can spell. -/
theorem maxValue_add_one (word : WordSize) : word.maxValue + 1 = 1 <<< (8 * word.bytes) := by
  cases word <;> rfl

theorem ofBytes?_bytes (word : WordSize) : ofBytes? word.bytes = some word := by
  cases word <;> rfl

end WordSize

end IrStream
