import IrStream.Program.Text
import IrStream.Proofs.Document.Draft
import IrStream.Proofs.Types.Words
import Mathlib.Algebra.Group.Int.Defs

/-!
# Reading numbers that were written

Integers are written as signed decimal numbers (`intText`) and floating-point numbers as sixteen
hexadecimal digits (`floatBitsText`).  Reading inverts both: the digits are those of the number, and
a number that is the value of some low bits is cut to these bits again (`truncate_signExtend`).

An integer constant is stored as 128 bits of which only the lowest are its own, `width` of them.
Three views of it meet here, and the lemmas go between them.

* The stored bits, cut by `truncate`.
* The vector of exactly `width` bits.  Library facts about two's complement are about this one, so
  the proofs go through it (`signExtend_eq`, `setWidth_truncate`).
* The signed number, which is what is written (`signExtend`).  It is always in the range of 128
  bits, whatever the width, so the reader accepts it (`signExtend_bounds`).

The digits are the library's for decimal numbers.  Hexadecimal ones are written by `upperHex`, which
has a fixed count of them and takes the lowest digit off the number first; the reader takes the
highest first.  So the induction on the count needs what reading does to one digit more *at the end*
(`continueNatural?_append`).

## Statements

* `truncate_signExtend`: **the value of the low bits is cut to these bits.**
* `signed?_intText`: **a signed number is read back** from its text.
* `unsigned?_upperHex`: **hexadecimal digits are read back.**
-/

set_option autoImplicit false

namespace IrStream

/-! ## Low bits

All widths up to 128 are meant.  Width zero is left out where a sign is asked for, since there is
none. -/

/-- The signed number is the one of the vector that has the low bits and no others. -/
theorem signExtend_eq {width : Nat} (positive : width ≠ 0) (narrow : width ≤ 128)
    (bits : BitVec 128) : signExtend bits width = (bits.setWidth width).toInt := by
  rw [signExtend]
  split
  · next whole =>
    obtain rfl : width = 128 := by omega
    rw [BitVec.setWidth_eq]
  · rfl

theorem setWidth_ofInt_toInt {width : Nat} (narrow : width ≤ 128) (low : BitVec width) :
    (BitVec.ofInt 128 low.toInt).setWidth width = low := by
  change (low.signExtend 128).setWidth width = low
  ext place bound
  simp only [BitVec.getElem_setWidth, BitVec.getLsbD_signExtend, bound, if_true]
  rw [decide_eq_true (Nat.lt_of_lt_of_le bound narrow), Bool.true_and]
  exact BitVec.getLsbD_eq_getElem bound

/-- Cutting does not change the low bits. -/
theorem setWidth_truncate {width : Nat} (narrow : width ≤ 128) (value : BitVec 128) :
    (truncate value width).setWidth width = value.setWidth width := by
  rw [truncate, BitVec.setWidth_setWidth_of_le _ narrow, BitVec.setWidth_eq]

/-- **The value of the low bits is cut to these bits.** -/
theorem truncate_signExtend {width : Nat} (positive : width ≠ 0) (narrow : width ≤ 128)
    (value : BitVec 128) :
    truncate (BitVec.ofInt 128 (signExtend (truncate value width) width)) width
      = truncate value width := by
  rw [signExtend_eq positive narrow, setWidth_truncate narrow, truncate,
    setWidth_ofInt_toInt narrow]
  rfl

/-- The value of an integer constant is a signed number of 128 bits. -/
theorem signExtend_bounds (bits : BitVec 128) (width : Nat) :
    -2 ^ 127 ≤ signExtend bits width ∧ signExtend bits width < 2 ^ 127 := by
  rw [signExtend]
  split
  · exact ⟨bits.le_toInt, BitVec.toInt_lt⟩
  · have low := (bits.setWidth width).le_toInt
    have high := BitVec.toInt_lt (x := bits.setWidth width)
    have bound : (2 : Int) ^ (width - 1) ≤ 2 ^ 127 := by
      exact_mod_cast Nat.pow_le_pow_right (by decide) (by omega)
    omega

/-! ## Decimal numbers -/

theorem isDigit_or_minus_of_mem_intText {value : Int} {c : Char}
    (mem : c ∈ (intText value).toList) :
    c.isDigit = true ∨ c = '-' := by
  cases value with
  | ofNat magnitude => exact .inl (isDigit_of_mem_toString mem)
  | negSucc before =>
    rw [intText, String.toList_append] at mem
    rcases List.mem_append.mp mem with sign | digit
    · exact .inr (List.mem_singleton.mp sign)
    · exact .inl (isDigit_of_mem_toString digit)

theorem intText_ne_nil (value : Int) : (intText value).toList ≠ [] := by
  cases value with
  | ofNat magnitude => exact toString_ne_nil magnitude
  | negSucc before => simp [intText, String.toList_append]

theorem signed?_of_isDigit {limit : Nat} {text : List Char}
    (digits : ∀ c ∈ text, c.isDigit = true) :
    signed? limit text = (bounded? 10 limit text).map Int.ofNat := by
  unfold signed?
  split
  · cases digits '+' List.mem_cons_self
  · cases digits '-' List.mem_cons_self
  · rfl

/-- **A signed number is read back** from its text. -/
theorem signed?_intText {limit : Nat} {value : Int} (low : -(limit : Int) ≤ value)
    (high : value < limit) : signed? limit (intText value).toList = some value := by
  cases value with
  | ofNat magnitude =>
    have small : magnitude < limit := Int.ofNat_lt.mp high
    rw [intText, signed?_of_isDigit fun c mem => isDigit_of_mem_toString mem,
      bounded?_toString small]
    rfl
  | negSucc before =>
    have small : before + 1 < limit + 1 := by omega
    have spelled : (intText (.negSucc before)).toList = '-' :: (toString (before + 1)).toList := by
      rw [intText, String.toList_append]
      rfl
    rw [spelled, signed?, bounded?_toString small]
    rfl

/-! ## Hexadecimal digits

Sixteen values and sixteen characters, so the facts about one digit are found by trying them all. -/

theorem digitValue?_upperHexDigit {value : Nat} (small : value < 16) :
    digitValue? (upperHexDigit value) = some value := by
  have every : ∀ value : Fin 16, digitValue? (upperHexDigit value) = some value.val := by decide
  exact every ⟨value, small⟩

theorem exists_of_mem_upperHex {count value : Nat} {c : Char} (mem : c ∈ upperHex count value) :
    ∃ digit < 16, c = upperHexDigit digit := by
  induction count generalizing value with
  | zero => cases mem
  | succ count ih =>
    rcases List.mem_append.mp mem with high | low
    · exact ih high
    · exact ⟨value % 16, Nat.mod_lt _ (by decide), List.mem_singleton.mp low⟩

/-- One digit more at the end is read behind what has been read so far. -/
theorem continueNatural?_append {base start : Nat} {text : List Char} {c : Char} :
    continueNatural? base start (text ++ [c])
      = (continueNatural? base start text).bind (continueNatural? base · [c]) := by
  induction text generalizing start with
  | nil => rfl
  | cons d rest ih =>
    rw [List.cons_append, continueNatural?, continueNatural?]
    split
    · split
      · exact ih
      · rfl
    · rfl

/-- Reading the digits of a number answers the number, if it has no more digits than are written. -/
theorem continueNatural?_upperHex {count value : Nat} (small : value < 16 ^ count) :
    continueNatural? 16 0 (upperHex count value) = some value := by
  induction count generalizing value with
  | zero =>
    obtain rfl : value = 0 := by omega
    rfl
  | succ count ih =>
    have high : value / 16 < 16 ^ count := by
      rw [Nat.div_lt_iff_lt_mul (by decide), ← Nat.pow_succ]
      exact small
    have digit : value % 16 < 16 := Nat.mod_lt _ (by decide)
    rw [upperHex, continueNatural?_append, ih high, Option.bind_some, continueNatural?,
      digitValue?_upperHexDigit digit]
    dsimp only
    rw [if_pos digit, continueNatural?]
    congr 1
    omega

theorem upperHex_ne_nil {count : Nat} (positive : count ≠ 0) (value : Nat) :
    upperHex count value ≠ [] := by
  obtain ⟨count, rfl⟩ := Nat.exists_eq_add_one_of_ne_zero positive
  simp [upperHex]

/-- **Hexadecimal digits are read back.** -/
theorem unsigned?_upperHex {count value limit : Nat} (positive : count ≠ 0)
    (small : value < 16 ^ count) (within : value < limit) :
    unsigned? 16 limit (upperHex count value) = some value := by
  have read := continueNatural?_upperHex small
  have sign := not_mem_of_continueNatural? read (rfl : digitValue? '+' = none)
  have number : bounded? 16 limit (upperHex count value) = some value := by
    rw [bounded?, natural?, if_neg (by simpa using upperHex_ne_nil positive value), read,
      Option.filter_some, if_pos (by simpa using within)]
  unfold unsigned?
  split
  · next spelled => exact absurd (spelled ▸ List.mem_cons_self) sign
  · exact number

end IrStream
