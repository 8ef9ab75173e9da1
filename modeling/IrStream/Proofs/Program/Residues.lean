import IrStream.Proofs.Document.Literal
import IrStream.Proofs.Types.Interning
import Mathlib.Data.Int.ModEq

/-!
# Integer constants are residues

An integer type of `width` bits has one constant for each residue modulo `2 ^ width`.  The constant
holds the least number of the residue (`truncate`), and is read as the signed number of `width` bits
that is in it (`signExtend`).

* With words of 128 bits, `truncate` is a mask (`truncate_eq_maskLow`), and `signExtend` moves the
  sign bit to the top of the word and back (`signExtend_eq_shiftLow`).  Both hold for every width:
  a mask or a shift as wide as the word is a case of its own.
* `Represents` says which bits stand for the residue of a value.  Cutting the value gives them
  (`represents_truncate`), as cutting to 128 bits first leaves out whole multiples of `2 ^ width`.
* Two calls of `constInt` answer the same constant if the types are the same and the values are
  congruent, and only then, whatever is done with the program between them
  (`Program.Built.constInt_eq_iff`).

The main statement puts these together: `constInt_residues`.

A residue has many names here.  It is a class of integers, the bits that are stored, the natural
number of these bits, and the signed number that is printed; the operations on words are a fifth.
Each lemma goes from one of them to the next, and always by way of vectors of exactly `width` bits,
for which the library has what is needed: the conversion from integers is a ring homomorphism and
hence factors through residues, and two vectors are equal if their natural numbers are.

Width zero is excluded from the main statement.  There is one residue and no sign, and `signExtend`
with width zero takes all bits.  Widths up to 128 are those of constants, by `maxIntBits`.
-/

set_option autoImplicit false

namespace IrStream

open Relation (ReflTransGen)

/-! ## Low bits of words -/

/-- The low `width` bits of a word, by a mask. -/
def maskLow (value : BitVec 128) (width : Nat) : BitVec 128 :=
  if 128 ≤ width then value else value &&& ((1#128 <<< width) - 1#128)

/-- The low `width` bits of a word with copies of the highest of them above, by a shift to the left
and an arithmetic shift to the right.  Width zero stands for all bits. -/
def shiftLow (bits : BitVec 128) (width : Nat) : BitVec 128 :=
  if width = 0 ∨ 128 ≤ width then bits
  else (bits <<< (128 - width)).sshiftRight (128 - width)

/-- A mask of the low bits is one less than a power of two. -/
theorem toNat_mask {width : Nat} (narrow : width < 128) :
    ((1#128 <<< width) - 1#128).toNat = 2 ^ width - 1 := by
  have bound : 2 ^ width < 2 ^ 128 := Nat.pow_lt_pow_right (by decide) narrow
  have bit : (1#128 <<< width).toNat = 2 ^ width := by
    rw [BitVec.toNat_shiftLeft, Nat.shiftLeft_eq, BitVec.toNat_one (by decide), Nat.one_mul,
      Nat.mod_eq_of_lt bound]
  have positive : 1#128 ≤ 1#128 <<< width := by
    rw [BitVec.le_def, bit]
    exact Nat.one_le_two_pow
  rw [BitVec.toNat_sub_of_le positive, bit]
  rfl

theorem truncate_eq_maskLow (value : BitVec 128) (width : Nat) :
    truncate value width = maskLow value width := by
  refine BitVec.eq_of_toNat_eq ?_
  rw [truncate, BitVec.toNat_setWidth, BitVec.toNat_setWidth,
    Nat.mod_eq_of_lt ((Nat.mod_le _ _).trans_lt value.isLt), maskLow]
  split
  · next wide =>
    exact Nat.mod_eq_of_lt (value.isLt.trans_le (Nat.pow_le_pow_right (by decide) wide))
  · next narrow =>
    rw [BitVec.toNat_and, toNat_mask (Nat.lt_of_not_le narrow), Nat.and_two_pow_sub_one_eq_mod]

section

variable {width : Nat} (positive : width ≠ 0) (narrow : width < 128)
include positive narrow

/-- The shift to the left moves the highest of the low bits to the place of the sign. -/
theorem msb_shiftLeft (bits : BitVec 128) :
    (bits <<< (128 - width)).msb = (bits.setWidth width).msb := by
  have place : 128 - 1 - (128 - width) = width - 1 := by omega
  rw [BitVec.msb_eq_getLsbD_last, BitVec.msb_eq_getLsbD_last, BitVec.getLsbD_shiftLeft,
    BitVec.getLsbD_setWidth, place, decide_eq_true (by decide), decide_eq_false (by omega),
    decide_eq_true (by omega)]
  rfl

/-- The shift back fills the places above the low bits with that bit. -/
theorem sshiftRight_shiftLeft (bits : BitVec 128) :
    (bits <<< (128 - width)).sshiftRight (128 - width)
      = (bits.setWidth width).signExtend 128 := by
  refine BitVec.eq_of_getLsbD_eq fun place bound => ?_
  rw [BitVec.getLsbD_sshiftRight, BitVec.getLsbD_signExtend, msb_shiftLeft positive narrow,
    decide_eq_false (Nat.not_le.mpr bound), decide_eq_true bound, Bool.not_false]
  -- a low bit was moved there and back, and every other place reads the bit at the top
  by_cases low : place < width
  · rw [if_pos (by omega), if_pos low, BitVec.getLsbD_shiftLeft, BitVec.getLsbD_setWidth,
      decide_eq_true (by omega), decide_eq_false (by omega), decide_eq_true low,
      Nat.add_sub_cancel_left]
    rfl
  · rw [if_neg (by omega), if_neg low]

end

theorem signExtend_eq_shiftLow (bits : BitVec 128) (width : Nat) :
    signExtend bits width = (shiftLow bits width).toInt := by
  rw [signExtend, shiftLow]
  split
  · rfl
  · rw [sshiftRight_shiftLeft (by omega) (by omega), BitVec.toInt_signExtend_of_le (by omega)]

/-! ## Residues -/

/-- The bits stand for the residue of `value` modulo `2 ^ width`. -/
structure Represents (width : Nat) (value : Int) (bits : BitVec 128) : Prop where
  /-- No bit is set above the width. -/
  small : bits.toNat < 2 ^ width
  /-- Read without a sign, the bits are the value modulo `2 ^ width`. -/
  congruent : (bits.toNat : Int) ≡ value [ZMOD 2 ^ width]
  /-- The signed number is the one of the residue that has `width` bits. -/
  signed : ∀ number : Int, number = signExtend bits width ↔
    -2 ^ (width - 1) ≤ number ∧ number < 2 ^ (width - 1) ∧ number ≡ value [ZMOD 2 ^ width]
  /-- The signed number is cut to the bits again. -/
  back : truncate (BitVec.ofInt 128 (signExtend bits width)) width = bits

/-- The balanced remainder is the signed number of `width` bits in the residue. -/
theorem eq_bmod_iff {width : Nat} (positive : width ≠ 0) {value number : Int} :
    number = value.bmod (2 ^ width) ↔
      -2 ^ (width - 1) ≤ number ∧ number < 2 ^ (width - 1) ∧ number ≡ value [ZMOD 2 ^ width] := by
  -- the bounds are half of the modulus, rounded down and up: one number, as the modulus is even
  obtain ⟨high, rfl⟩ := Nat.exists_eq_add_one_of_ne_zero positive
  have cast : ((2 ^ (high + 1) : Nat) : Int) = 2 ^ (high + 1) := by push_cast; rfl
  have double : (2 : Int) ^ (high + 1) = 2 * 2 ^ high := by rw [Int.pow_succ, Int.mul_comm]
  rw [eq_comm, Int.bmod_eq_iff (Nat.two_pow_pos _), Int.modEq_comm, Int.modEq_iff_dvd, cast,
    Nat.add_sub_cancel]
  constructor
  · rintro ⟨low, top, congruent⟩
    exact ⟨by omega, by omega, congruent⟩
  · rintro ⟨low, top, congruent⟩
    exact ⟨by omega, by omega, congruent⟩

section

variable {width : Nat} (narrow : width ≤ 128)
include narrow

/-- A value that was cut to 128 bits has the low bits that it had. -/
theorem setWidth_ofInt (value : Int) :
    (BitVec.ofInt 128 value).setWidth width = BitVec.ofInt width value := by
  refine BitVec.eq_of_toInt_eq ?_
  rw [← BitVec.signExtend_eq_setWidth_of_le _ narrow, BitVec.toInt_signExtend,
    Nat.min_eq_left narrow, BitVec.toInt_ofInt, BitVec.toInt_ofInt,
    Int.bmod_bmod_of_dvd (Nat.pow_dvd_pow 2 narrow)]

/-- The bits are the least number in the residue. -/
theorem toNat_truncate_ofInt (value : Int) :
    ((truncate (BitVec.ofInt 128 value) width).toNat : Int) = value % 2 ^ width := by
  have nonzero : ((2 ^ width : Nat) : Int) ≠ 0 := Int.natCast_ne_zero.mpr (Nat.two_pow_pos _).ne'
  rw [truncate, setWidth_ofInt narrow, BitVec.toNat_setWidth_of_le narrow, BitVec.toNat_ofInt,
    Int.toNat_of_nonneg (Int.emod_nonneg _ nonzero)]
  push_cast
  rfl

theorem truncate_eq_truncate_iff {first second : Int} :
    truncate (BitVec.ofInt 128 first) width = truncate (BitVec.ofInt 128 second) width ↔
      first ≡ second [ZMOD 2 ^ width] := by
  rw [← BitVec.toNat_inj, ← Int.natCast_inj, toNat_truncate_ofInt narrow,
    toNat_truncate_ofInt narrow, Int.ModEq]

/-- The signed number is the balanced remainder. -/
theorem signExtend_truncate (positive : width ≠ 0) (value : Int) :
    signExtend (truncate (BitVec.ofInt 128 value) width) width = value.bmod (2 ^ width) := by
  rw [signExtend_eq positive narrow, setWidth_truncate narrow, setWidth_ofInt narrow,
    BitVec.toInt_ofInt]

/-- **The low bits of a value stand for its residue.** -/
theorem represents_truncate (positive : width ≠ 0) (value : Int) :
    Represents width value (truncate (BitVec.ofInt 128 value) width) where
  small := toNat_truncate_lt _ _
  congruent := by
    rw [toNat_truncate_ofInt narrow]
    exact Int.mod_modEq _ _
  signed number := by
    rw [signExtend_truncate narrow positive]
    exact eq_bmod_iff positive
  back := truncate_signExtend positive narrow _

end

/-! ## Constants -/

namespace Program

variable {program after : Program} {type : TypeId} {width : UInt32} {id : ConstId}

theorem exists_constInt (found : program.types.shape type = .ok (.int width))
    (narrow : width.toNat ≤ maxIntBits) (value : Int) :
    ∃ id after, program.constInt type value = .ok (id, after) :=
  ⟨_, _, (constInt_of_int found value).trans (if_neg (Nat.not_lt.mpr narrow))⟩

/-- **Integers are told apart by their types and their residues.**  One is stored already, and the
other is asked for. -/
theorem Built.constInt_eq_iff (built : program.Built)
    (found : program.types.shape type = .ok (.int width)) (narrow : width.toNat ≤ maxIntBits)
    {first second : Int} (stored : program.constant id
      = .ok (.int type (truncate (BitVec.ofInt 128 first) width.toNat)))
    {kind : TypeId} {other : ConstId} (run : program.constInt kind second = .ok (other, after)) :
    id = other ↔ type = kind ∧ first ≡ second [ZMOD 2 ^ width.toNat] := by
  have canonical := (built.step (.constInt run)).canonical_constants
  have kept := (Step.constInt run).constant_eq stored
  obtain ⟨wide, there, -, -, new⟩ := stored_of_constInt run
  rw [canonical.faithful.eq_iff kept new, Constant.int.injEq]
  -- widths have to agree before residues can be compared, and they do if the types are the same
  refine and_congr_right ?_
  rintro rfl
  cases found.symm.trans there
  exact truncate_eq_truncate_iff narrow

end Program

/-- **Integer constants are exactly the residues** modulo two to the width of their type.  In every
program that operations make, `constInt` answers a constant for every value.  Its bits are those of
the residue of the value, its signed number is the one of the residue that has that many bits, and
both are what the operations on words give.  The constant lasts, and any later call answers the same
one if, and only if, the values are congruent. -/
theorem constInt_residues {program : Program} (built : program.Built) {type : TypeId}
    {width : UInt32} (found : program.types.shape type = .ok (.int width))
    (positive : 1 ≤ width.toNat) (narrow : width.toNat ≤ 128) (first : Int) :
    ∃ id after bits, program.constInt type first = .ok (id, after)
      ∧ Represents width.toNat first bits
      ∧ bits = maskLow (BitVec.ofInt 128 first) width.toNat
      ∧ signExtend bits width.toNat = (shiftLow bits width.toNat).toInt
      ∧ ∀ later, ReflTransGen Program.Step after later →
        later.constant id = .ok (.int type bits)
        ∧ ∀ second, ∃ other final, later.constInt type second = .ok (other, final)
          ∧ (id = other ↔ first ≡ second [ZMOD 2 ^ width.toNat]) := by
  obtain ⟨id, after, run⟩ := Program.exists_constInt found narrow first
  obtain ⟨_, there, -, types, stored⟩ := Program.stored_of_constInt run
  cases found.symm.trans there
  refine ⟨id, after, _, run, represents_truncate narrow (Nat.ne_zero_of_lt positive) first,
    truncate_eq_maskLow _ _, signExtend_eq_shiftLow _ _, fun later since => ?_⟩
  have next : after.Built := built.step (.constInt run)
  obtain ⟨kept, shape⟩ := next.keeps_run since stored (types ▸ found) rfl
  refine ⟨kept, fun second => ?_⟩
  obtain ⟨other, final, again⟩ := Program.exists_constInt shape narrow second
  refine ⟨other, final, again, ?_⟩
  rw [(next.run since).constInt_eq_iff shape narrow kept again]
  exact and_iff_right rfl

/-- The byte 200 is read as -56, and any later call with -56 answers it. -/
theorem constInt_residues_byte :
    ∃ id after, Program.addOne.constInt .i8 200 = .ok (id, after)
      ∧ after.constant id = .ok (.int .i8 200) ∧ signExtend 200 8 = -56
      ∧ ∀ later, ReflTransGen Program.Step after later →
        ∃ final, later.constInt .i8 (-56) = .ok (id, final) := by
  obtain ⟨id, after, bits, run, represents, masked, -, lasts⟩ :=
    @constInt_residues _ Program.built_addOne .i8 8 rfl (by decide) (by decide) 200
  obtain rfl : bits = 200 := masked.trans (by decide +kernel)
  have signed : -56 = signExtend 200 8 := (represents.signed (-56)).mpr (by decide)
  refine ⟨id, after, run, (lasts after .refl).1, signed.symm, fun later since => ?_⟩
  obtain ⟨other, final, again, same⟩ := (lasts later since).2 (-56)
  obtain rfl : id = other := same.mpr (by decide)
  exact ⟨final, again⟩

end IrStream
