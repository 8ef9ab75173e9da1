import IrStream.Encode.Inst
import IrStream.Proofs.Types.Extent
import Mathlib.Algebra.Group.Nat.Defs

/-!
# Pointer offsets are exact

The offset of a `getelementptr` is computed in 64 bits, step by step.  Here the same address is said
in integers, as a sum that no step cuts (`Program.Addresses`): the indices in turn stand for numbers
(`Program.Reads`) and each of them steps on from the type reached so far (`Program.Steps`).
`Program.FirstFault` is the other outcome, the first position that has no step.

Main statement: the computed offset is the exact address modulo two to the 64, a fault is the one of
the first position that has no step, and paths may be split (`pointerOffset_exact`).

## Two descriptions of an offset

`pointerOffset` is a recursion that adds and multiplies words, looks at layouts on the way, and
stops at the first thing that is wrong.  The relations above are stated with no recursion, no words
and no errors; whether they hold can be judged by reading them.  What remains is to show that the
two agree, and this is done one definition at a time.

* An index: `indexValue_eq_ok_iff` and `indexValue_eq_error_iff` against `Reads`.
* A step: `scaledOffset_eq_ok_iff` for whole objects and `partOffset_eq_ok_iff` for fields and
  elements, against `Steps`.
* A path: `offsetFrom_eq_ok_iff` and `offsetFrom_eq_error_iff`, by induction on the indices.

The first index is treated apart by the source of the recursion: it steps over whole objects, and
all others go into one.  `stepOffset` and `offsetFrom` are the same computation with one sort of
step, in which the position tells which it is; `offsetFrom_zero` says that nothing is changed by
that.

That sums of words are right modulo two to the 64 is a fact about `BitVec` and needs no bounds.
That no handle outside its arena is ever met needs the program to be complete, and is where the
hypothesis on the source type is used.
-/

set_option autoImplicit false

namespace IrStream

/-! ## What indices mean

These are the definitions to be read.  Everything behind them is proof. -/

namespace Program

/-- The number that an index stands for.  An integer constant is sign-extended from the width of
its type and then cut to 64 bits, read as signed. -/
inductive Reads (program : Program) : Operand → Int → Prop
  /-- The bits fill the low end of the 128, so the sign is taken from the width of the type first.
  A value that is too wide for 64 bits loses its upper ones after that. -/
  | intro {id : ConstId} {type : TypeId} {bits : BitVec 128} {width : UInt32}
      (found : program.constant id = .ok (.int type bits))
      (typed : program.types.shape type = .ok (.int width)) :
      Reads program (.const id) ((signExtend bits width.toNat).bmod (2 ^ 64))

/-- The index `value` at `position` leads from a type to a part that lies `bytes` bytes on.  The
first index steps over whole objects, a later one selects a field or an element. -/
inductive Steps (program : Program) : Nat → TypeId → Int → Int → TypeId → Prop
  /-- The first index counts objects, one after the other in memory, and stays at the type. -/
  | object {type : TypeId} {value : Int} {size : Nat}
      (sized : program.types.allocSize? program.layout type = .ok (some size)) :
      Steps program 0 type value (value * size) type
  /-- A field is selected by a number that is not negative, and lies at its offset in the layout. -/
  | field {position : Nat} {type : TypeId} {shape : StructShape} {layout : StructLayout}
      {number offset : Nat} {field : TypeId}
      (found : program.types.shape type = .ok (.struct shape))
      (laid : program.types.structLayout? program.layout type = .ok (some layout))
      (there : shape.fields[number]? = some field)
      (starts : layout.offsets[number]? = some offset) :
      Steps program (position + 1) type number offset field
  /-- An element need not be one of the array: the address is computed for every number. -/
  | element {position : Nat} {type : TypeId} {value : Int} {elem : TypeId} {length : UInt64}
      {size : Nat} (found : program.types.shape type = .ok (.array elem length))
      (sized : program.types.allocSize? program.layout elem = .ok (some size)) :
      Steps program (position + 1) type value (value * size) elem

/-- The indices from `position` on lead from a type to another that lies `exact` bytes on. -/
inductive Addresses (program : Program) : Nat → TypeId → List Operand → Int → TypeId → Prop
  /-- Without an index the address is the one of the object. -/
  | nil (position : Nat) (type : TypeId) : Addresses program position type [] 0 type
  /-- The bytes of the first index and those of the later ones add up as exact integers. -/
  | cons {position : Nat} {type part reached : TypeId} {index : Operand} {rest : List Operand}
      {value bytes exact : Int} (reads : Reads program index value)
      (steps : Steps program position type value bytes part)
      (later : Addresses program (position + 1) part rest exact reached) :
      Addresses program position type (index :: rest) (bytes + exact) reached

/-- What is wrong at the first of the indices from `position` on that does not lead on. -/
inductive FirstFault (program : Program) :
    Nat → TypeId → List Operand → OffsetFault → Prop
  /-- The index is not an integer constant. -/
  | nonConstant {position : Nat} {type : TypeId} {index : Operand} {rest : List Operand}
      (unread : ∀ value, ¬ Reads program index value) :
      FirstFault program position type (index :: rest) .nonConstant
  /-- The index is a constant, but the type has no part or no size for it.  The fault names the
  position, from zero, and the type there. -/
  | invalid {position : Nat} {type : TypeId} {index : Operand} {rest : List Operand} {value : Int}
      (reads : Reads program index value)
      (undefined : ∀ bytes part, ¬ Steps program position type value bytes part) :
      FirstFault program position type (index :: rest) (.invalid position type)
  /-- The index leads on, and the fault is behind it. -/
  | later {position : Nat} {type part : TypeId} {index : Operand} {rest : List Operand}
      {value bytes : Int} {fault : OffsetFault} (reads : Reads program index value)
      (steps : Steps program position type value bytes part)
      (first : FirstFault program (position + 1) part rest fault) :
      FirstFault program position type (index :: rest) fault

end Program

/-- The error that reports a fault in the indices of the instruction written `text`. -/
def OffsetFault.report (program : Program) (function text : String) : OffsetFault → EncodeError
  | .nonConstant => .nonConstantOffset function text
  | .invalid index type => .invalidOffsetIndex function index (program.types.text type) text
  | .dangling handle => .dangling handle

/-- The numbers that types of at most 64 bits hold are their own remainders. -/
theorem bmod_signExtend {bits : BitVec 128} {width : Nat} (positive : 0 < width)
    (narrow : width ≤ 64) : (signExtend bits width).bmod (2 ^ 64) = signExtend bits width := by
  have value : signExtend bits width = (bits.setWidth width).toInt := by
    rw [signExtend, if_neg (by omega)]
  have below := BitVec.two_mul_toInt_lt (x := bits.setWidth width)
  have above := BitVec.le_two_mul_toInt (x := bits.setWidth width)
  have bound : (2 : Int) ^ width ≤ 2 ^ 64 := by
    exact_mod_cast Nat.pow_le_pow_right (by decide) narrow
  rw [value]
  exact Int.bmod_eq_of_le (by omega) (by omega)

/-! ## Look-ups inside offsets

A look-up that fails inside the computation becomes a fault of its own sort.  In a complete program
it does not happen, and these lemmas take it out of the way. -/

section

variable {α : Type} {answer : Except Dangling α}

/-- A look-up inside the computation succeeds if it does by itself. -/
theorem offset_eq_ok_iff {value : α} :
    (liftM answer : Except OffsetFault α) = .ok value ↔ answer = .ok value := by
  cases answer with
  | ok a => exact ⟨fun h => by cases h; rfl, fun h => by cases h; rfl⟩
  | error handle => exact ⟨fun h => (nomatch h), fun h => (nomatch h)⟩

/-- A look-up that succeeds is no reason for a fault. -/
theorem offset_ne_error {fault : OffsetFault} (h : ∃ value, answer = .ok value) :
    (liftM answer : Except OffsetFault α) ≠ .error fault := by
  obtain ⟨value, rfl⟩ := h
  exact fun same => nomatch same

/-- If there is but one way to fail, failing is the same as not succeeding. -/
theorem eq_error_iff_of_only {ε : Type} {outcome : Except ε α} {only : ε}
    (h : ∀ error, outcome = .error error → error = only) {error : ε} :
    outcome = .error error ↔ (∀ value, outcome ≠ .ok value) ∧ error = only := by
  cases outcome with
  | ok value => exact ⟨fun h => (nomatch h), fun none => absurd rfl (none.1 value)⟩
  | error other =>
    rw [h other rfl]
    exact ⟨fun same => ⟨fun _ h => (nomatch h), (Except.error.inj same).symm⟩,
      fun same => congrArg _ same.2.symm⟩

end

namespace Program

variable {program : Program}

/-! ## Indices

An index is read as a number first, whatever the type is that it is applied to.  What the
computation then uses is a word, the number modulo two to the 64. -/

/-- An index of at most 64 bits stands for its signed value. -/
theorem Reads.signed {id : ConstId} {type : TypeId} {bits : BitVec 128} {width : UInt32}
    (found : program.constant id = .ok (.int type bits))
    (typed : program.types.shape type = .ok (.int width)) (positive : 0 < width.toNat)
    (narrow : width.toNat ≤ 64) :
    Reads program (.const id) (signExtend bits width.toNat) := by
  have reads := Reads.intro found typed
  rwa [bmod_signExtend positive narrow] at reads

/-- The value of an index is what it reads as a signed number, provided that it is a constant
integer. -/
theorem indexValue_eq_ok_iff {index : Operand} {value : BitVec 64} :
    program.indexValue index = .ok value ↔ Reads program index value.toInt := by
  constructor
  · intro h
    cases index with
    | const id =>
      simp only [indexValue, bind_eq_ok_iff, offset_eq_ok_iff] at h
      obtain ⟨constant, found, h⟩ := h
      split at h
      · simp only [bind_eq_ok_iff, offset_eq_ok_iff] at h
        obtain ⟨shape, typed, h⟩ := h
        split at h
        · rw [pure_eq_ok_iff.mp h, BitVec.toInt_ofInt]
          exact .intro found typed
        · cases h
      · cases h
    | _ => cases h
  · intro h
    generalize same : value.toInt = number at h
    obtain ⟨found, typed⟩ := h
    simp only [indexValue, bind_eq_ok_iff, offset_eq_ok_iff]
    refine ⟨_, found, ?_⟩
    simp only [bind_eq_ok_iff, offset_eq_ok_iff]
    refine ⟨_, typed, ?_⟩
    rw [pure_eq_ok_iff, ← BitVec.toInt_inj, same, BitVec.toInt_ofInt]

/-- An index that stands for a number in the range of a word has that value. -/
theorem Reads.exists_indexValue {index : Operand} {value : Int}
    (reads : Reads program index value) :
    ∃ bits : BitVec 64, program.indexValue index = .ok bits ∧ bits.toInt = value := by
  have number : (BitVec.ofInt 64 value).toInt = value := by
    cases reads
    rw [BitVec.toInt_ofInt, Int.bmod_bmod]
  exact ⟨BitVec.ofInt 64 value, indexValue_eq_ok_iff.mpr (number.symm ▸ reads), number⟩

/-- There is one way to fail, and it is that the index reads no number at all. -/
theorem indexValue_eq_error_iff (complete : program.Complete) {index : Operand}
    (inRange : index.InRange program) {fault : OffsetFault} :
    program.indexValue index = .error fault ↔
      (∀ value, ¬ Reads program index value) ∧ fault = .nonConstant := by
  have only : ∀ fault, program.indexValue index = .error fault → fault = .nonConstant := by
    intro fault h
    cases index with
    | const id =>
      obtain ⟨constant, found⟩ : ∃ constant, program.constant id = .ok constant :=
        ⟨_, constant_eq_ok_iff.mpr (Array.getElem?_eq_getElem inRange)⟩
      rw [indexValue, bind_eq_error_iff] at h
      rcases h with h | ⟨_, same, h⟩
      · exact absurd h (offset_ne_error ⟨constant, found⟩)
      · cases found.symm.trans (offset_eq_ok_iff.mp same)
        split at h
        · have has : program.types.Has _ := complete.constant found
          rcases bind_eq_error_iff.mp h with h | ⟨shape, -, h⟩
          · exact absurd h (offset_ne_error has.exists_shape)
          · split at h <;> cases h
            rfl
        · cases h
          rfl
    | _ =>
      cases h
      rfl
  rw [eq_error_iff_of_only only]
  refine and_congr_left fun _ => ⟨fun none value reads => ?_, fun unread bits h => ?_⟩
  · obtain ⟨bits, read, -⟩ := reads.exists_indexValue
    exact none bits read
  · exact unread _ (indexValue_eq_ok_iff.mp h)

/-! ## Steps

A step looks at the shape of the type that was reached and at its layout, and answers how far it
goes and what it reaches. -/

/-- Where a step leads is in the arena. -/
theorem Steps.has (complete : program.Complete) {position : Nat} {type part : TypeId}
    {value bytes : Int} (has : program.types.Has type)
    (steps : Steps program position type value bytes part) : program.types.Has part := by
  cases steps with
  | object => exact has
  | field found _ there _ => exact complete.types found _ (List.mem_of_getElem? there)
  | element found _ => exact complete.types found _ List.mem_cons_self

/-- Where a step of an address leads has a size. -/
theorem Steps.sized {position : Nat} {type part : TypeId} {value bytes : Int}
    (steps : Steps program position type value bytes part) :
    ∃ size, program.types.allocSize? program.layout part = .ok (some size) := by
  cases steps with
  | object sized => exact ⟨_, sized⟩
  | field found laid there starts =>
    obtain ⟨size, sized, -⟩ := Types.field_of_structLayout? found laid there starts
    exact ⟨size, sized⟩
  | element _ sized => exact ⟨_, sized⟩

/-- The first index and those of arrays count multiples of a size.  The product is computed in a
word, and it is that of the integers reduced to a word. -/
theorem scaledOffset_eq_ok_iff {position : Nat} {reached type : TypeId} {value offset : BitVec 64} :
    program.scaledOffset position reached type value = .ok offset ↔
      ∃ size : Nat, program.types.allocSize? program.layout type = .ok (some size)
        ∧ offset = BitVec.ofInt 64 (value.toInt * size) := by
  simp only [scaledOffset, bind_eq_ok_iff, offset_eq_ok_iff, BitVec.ofInt_mul, BitVec.ofInt_toInt,
    BitVec.ofInt_natCast]
  constructor
  · rintro ⟨size?, answer, h⟩
    cases size? with
    | none => cases h
    | some size => exact ⟨size, answer, pure_eq_ok_iff.mp h⟩
  · rintro ⟨size, answer, same⟩
    exact ⟨some size, answer, pure_eq_ok_iff.mpr same⟩

/-- The only fault of a step over objects is that they have no size. -/
theorem scaledOffset_eq_error (complete : program.Complete) {position : Nat} {reached type : TypeId}
    {value : BitVec 64} (has : program.types.Has type) {fault : OffsetFault}
    (h : program.scaledOffset position reached type value = .error fault) :
    fault = .invalid position reached := by
  rw [scaledOffset, bind_eq_error_iff] at h
  rcases h with h | ⟨size?, -, h⟩
  · exact absurd h (offset_ne_error (complete.types.allocSize?_eq_ok has))
  · cases size? <;> cases h
    rfl

/-- What an index selects in a struct. -/
theorem partOffset_struct {position : Nat} {type : TypeId} {shape : StructShape}
    {value : BitVec 64} (found : program.types.shape type = .ok (.struct shape)) :
    program.partOffset position type value =
      if value.toInt < 0 then .error (.invalid position type)
      else match shape.fields[value.toNat]? with
        | none => .error (.invalid position type)
        | some field =>
          liftM (program.types.structLayout? program.layout type) >>= fun layout? =>
            match layout?.bind (·.offsets[value.toNat]?) with
            | some offset => .ok (BitVec.ofNat 64 offset, field)
            | none => .error (.invalid position type) := by
  rw [partOffset, found]
  rfl

/-- What an index selects in an array. -/
theorem partOffset_array {position : Nat} {type elem : TypeId} {length : UInt64}
    {value : BitVec 64} (found : program.types.shape type = .ok (.array elem length)) :
    program.partOffset position type value =
      program.scaledOffset position type elem value >>= fun offset => .ok (offset, elem) := by
  rw [partOffset, found]
  rfl

/-- A word that is a natural number as a signed value is that number without a sign as well. -/
theorem toNat_eq_of_toInt {value : BitVec 64} {number : Nat} (h : value.toInt = number) :
    value.toNat = number := by
  have cond := BitVec.toInt_eq_toNat_cond value
  have bound := value.isLt
  split at cond <;> omega

/-- A step of the computation is a step of the specification, which counts in integers of any size;
the result is reduced to a word. -/
theorem partOffset_eq_ok_iff {position : Nat} {type part : TypeId} {value offset : BitVec 64} :
    program.partOffset (position + 1) type value = .ok (offset, part) ↔
      ∃ bytes, Steps program (position + 1) type value.toInt bytes part
        ∧ offset = BitVec.ofInt 64 bytes := by
  constructor
  · intro h
    have first := h
    rw [partOffset] at first
    obtain ⟨shape, found, first⟩ := bind_eq_ok_iff.mp first
    rw [offset_eq_ok_iff] at found
    cases shape with
    | struct shape =>
      rw [partOffset_struct found] at h
      split at h
      · cases h
      · next notNegative =>
        split at h
        · cases h
        · next field there =>
          simp only [bind_eq_ok_iff, offset_eq_ok_iff] at h
          obtain ⟨layout?, laid, h⟩ := h
          split at h
          · next start starts =>
            obtain ⟨layout, rfl, starts⟩ := Option.bind_eq_some_iff.mp starts
            cases h
            -- an index of a field is not negative, so it is the same number with and without a sign
            have number : value.toInt = value.toNat := by
              have cond := BitVec.toInt_eq_toNat_cond value
              split at cond <;> omega
            rw [number]
            exact ⟨start, .field found laid there starts, (BitVec.ofInt_natCast 64 start).symm⟩
          · cases h
    | array elem length =>
      rw [partOffset_array found] at h
      simp only [bind_eq_ok_iff, scaledOffset_eq_ok_iff] at h
      obtain ⟨scaled, ⟨size, sized, rfl⟩, same⟩ := h
      cases same
      exact ⟨_, .element found sized, rfl⟩
    | _ => cases first
  · rintro ⟨bytes, steps, rfl⟩
    generalize same : value.toInt = number at steps
    cases steps with
    | field found laid there starts =>
      rw [partOffset_struct found, if_neg (by omega), toNat_eq_of_toInt same]
      simp only [there, bind_eq_ok_iff, offset_eq_ok_iff]
      refine ⟨_, laid, ?_⟩
      simp only [Option.bind_some, starts, BitVec.ofInt_natCast]
    | element found sized =>
      rw [partOffset_array found]
      simp only [bind_eq_ok_iff, scaledOffset_eq_ok_iff]
      exact ⟨_, ⟨_, sized, rfl⟩, by rw [same]⟩

/-- The only fault of a step into an object is that there is no such part. -/
theorem partOffset_eq_error (complete : program.Complete) {position : Nat} {type : TypeId}
    {value : BitVec 64} (has : program.types.Has type) {fault : OffsetFault}
    (h : program.partOffset position type value = .error fault) :
    fault = .invalid position type := by
  obtain ⟨shape, found⟩ := has.exists_shape
  cases shape with
  | struct shape =>
    rw [partOffset_struct found] at h
    split at h
    · cases h
      rfl
    · split at h
      · cases h
        rfl
      · rcases bind_eq_error_iff.mp h with h | ⟨layout?, -, h⟩
        · exact absurd h (offset_ne_error (complete.types.structLayout?_eq_ok has))
        · split at h <;> cases h
          rfl
  | array elem length =>
    rw [partOffset_array found] at h
    rcases bind_eq_error_iff.mp h with h | ⟨_, -, h⟩
    · exact scaledOffset_eq_error complete (complete.types found elem List.mem_cons_self) h
    · cases h
  | _ =>
    rw [partOffset, found] at h
    cases h
    rfl

/-! ## Paths

With one sort of step the recursion is a fold, and the induction on the indices has one case. -/

/-- Bytes that the index at `position` adds to a pointer into an object of type `type`, and the type
that it leads to.  The first index steps over whole objects. -/
def stepOffset (program : Program) (position : Nat) (type : TypeId) (value : BitVec 64) :
    Except OffsetFault (BitVec 64 × TypeId) :=
  match position with
  | 0 => program.scaledOffset 0 type type value >>= fun offset => .ok (offset, type)
  | position + 1 => program.partOffset (position + 1) type value

/-- Bytes that the indices from `position` on add, the first one included. -/
def offsetFrom (program : Program) : (position : Nat) → (type : TypeId) → List Operand →
    Except OffsetFault (BitVec 64)
  | _, _, [] => return 0
  | position, type, index :: rest => do
    let value ← program.indexValue index
    let step ← program.stepOffset position type value
    return step.1 + (← offsetFrom program (position + 1) step.2 rest)

/-- Behind the first index the two computations are the same. -/
theorem offsetFrom_succ (position : Nat) (type : TypeId) (indices : List Operand) :
    program.offsetFrom (position + 1) type indices
      = program.pathOffset (position + 1) type indices := by
  induction indices generalizing position type with
  | nil => rfl
  | cons index rest ih =>
    simp only [offsetFrom, pathOffset, stepOffset, ih]

/-- The offset of a pointer is computed in steps of one kind. -/
theorem offsetFrom_zero (source : TypeId) (indices : List Operand) :
    program.offsetFrom 0 source indices = program.pointerOffset source indices := by
  cases indices with
  | nil => rfl
  | cons index rest =>
    simp only [offsetFrom, pointerOffset, stepOffset, offsetFrom_succ, bind_assoc]
    rfl

/-- The first index stays in its type, all others select a part. -/
theorem stepOffset_eq_ok_iff {position : Nat} {type part : TypeId} {value offset : BitVec 64} :
    program.stepOffset position type value = .ok (offset, part) ↔
      ∃ bytes, Steps program position type value.toInt bytes part
        ∧ offset = BitVec.ofInt 64 bytes := by
  cases position with
  | succ position => exact partOffset_eq_ok_iff
  | zero =>
    simp only [stepOffset, bind_eq_ok_iff, scaledOffset_eq_ok_iff]
    constructor
    · rintro ⟨_, ⟨size, sized, rfl⟩, same⟩
      cases same
      exact ⟨_, .object sized, rfl⟩
    · rintro ⟨bytes, steps, rfl⟩
      cases steps with
      | object sized => exact ⟨_, ⟨_, sized, rfl⟩, rfl⟩

/-- A step has one sort of fault. -/
theorem stepOffset_eq_error (complete : program.Complete) {position : Nat} {type : TypeId}
    {value : BitVec 64} (has : program.types.Has type) {fault : OffsetFault}
    (h : program.stepOffset position type value = .error fault) :
    fault = .invalid position type := by
  cases position with
  | succ position => exact partOffset_eq_error complete has h
  | zero =>
    rcases bind_eq_error_iff.mp h with h | ⟨_, -, h⟩
    · exact scaledOffset_eq_error complete has h
    · cases h

/-- An index fails exactly if it leads nowhere, and then the fault names its position and the type
it was applied to. -/
theorem stepOffset_eq_error_iff (complete : program.Complete) {position : Nat} {type : TypeId}
    {value : BitVec 64} (has : program.types.Has type) {fault : OffsetFault} :
    program.stepOffset position type value = .error fault ↔
      (∀ bytes part, ¬ Steps program position type value.toInt bytes part)
        ∧ fault = .invalid position type := by
  rw [eq_error_iff_of_only fun fault => stepOffset_eq_error complete has]
  refine and_congr_left fun _ => ⟨fun none bytes part steps => ?_, ?_⟩
  · exact none _ (stepOffset_eq_ok_iff.mpr ⟨bytes, steps, rfl⟩)
  · rintro undefined ⟨offset, part⟩ h
    obtain ⟨bytes, steps, -⟩ := stepOffset_eq_ok_iff.mp h
    exact undefined bytes part steps

/-- The offset of a path is its exact address, cut to a word. -/
theorem offsetFrom_eq_ok_iff {position : Nat} {type : TypeId} {indices : List Operand}
    {offset : BitVec 64} : program.offsetFrom position type indices = .ok offset ↔
      ∃ exact reached, Addresses program position type indices exact reached
        ∧ offset = BitVec.ofInt 64 exact := by
  induction indices generalizing position type offset with
  | nil =>
    constructor
    · intro h
      cases h
      exact ⟨0, type, .nil _ _, rfl⟩
    · rintro ⟨exact, reached, ⟨⟩, rfl⟩
      rfl
  | cons index rest ih =>
    simp only [offsetFrom, bind_eq_ok_iff, pure_eq_ok_iff, indexValue_eq_ok_iff]
    constructor
    · rintro ⟨value, reads, ⟨start, part⟩, selected, more, later, rfl⟩
      obtain ⟨bytes, steps, rfl⟩ := stepOffset_eq_ok_iff.mp selected
      obtain ⟨exact, reached, addresses, rfl⟩ := ih.mp later
      exact ⟨bytes + exact, reached, .cons reads steps addresses,
        (BitVec.ofInt_add bytes exact).symm⟩
    · rintro ⟨_, reached, addresses, rfl⟩
      cases addresses with
      | @cons _ _ part _ _ _ _ bytes exact reads steps addresses =>
        obtain ⟨value, read, rfl⟩ := reads.exists_indexValue
        exact ⟨value, reads, (BitVec.ofInt 64 bytes, part),
          stepOffset_eq_ok_iff.mpr ⟨bytes, steps, rfl⟩, BitVec.ofInt 64 exact,
          ih.mpr ⟨exact, reached, addresses, rfl⟩, BitVec.ofInt_add bytes exact⟩

/-- The fault of a path is the one of its first index that does not lead on. -/
theorem offsetFrom_eq_error_iff (complete : program.Complete) {position : Nat} {type : TypeId}
    {indices : List Operand} (has : program.types.Has type)
    (inRange : ∀ index ∈ indices, index.InRange program) {fault : OffsetFault} :
    program.offsetFrom position type indices = .error fault ↔
      FirstFault program position type indices fault := by
  induction indices generalizing position type with
  | nil => exact ⟨fun h => (nomatch h), fun h => (nomatch h)⟩
  | cons index rest ih =>
    have known := inRange index List.mem_cons_self
    have others := fun other mem => inRange other (List.mem_cons_of_mem index mem)
    rw [offsetFrom, bind_eq_error_iff, indexValue_eq_error_iff complete known]
    constructor
    · rintro (⟨unread, rfl⟩ | ⟨value, read, h⟩)
      · exact .nonConstant unread
      · have reads := indexValue_eq_ok_iff.mp read
        rcases bind_eq_error_iff.mp h with h | ⟨⟨start, part⟩, selected, h⟩
        · obtain ⟨undefined, rfl⟩ := (stepOffset_eq_error_iff complete has).mp h
          exact .invalid reads undefined
        · obtain ⟨bytes, steps, -⟩ := stepOffset_eq_ok_iff.mp selected
          rcases bind_eq_error_iff.mp h with h | ⟨_, -, h⟩
          · exact .later reads steps ((ih (steps.has complete has) others).mp h)
          · cases h
    · intro first
      cases first with
      | nonConstant unread => exact .inl ⟨unread, rfl⟩
      | invalid reads undefined =>
        obtain ⟨value, read, rfl⟩ := reads.exists_indexValue
        exact .inr ⟨value, read, bind_eq_error_iff.mpr (.inl
          ((stepOffset_eq_error_iff complete has).mpr ⟨undefined, rfl⟩))⟩
      | later reads steps first =>
        obtain ⟨value, read, rfl⟩ := reads.exists_indexValue
        exact .inr ⟨value, read, bind_eq_error_iff.mpr (.inr
          ⟨_, stepOffset_eq_ok_iff.mpr ⟨_, steps, rfl⟩, bind_eq_error_iff.mpr (.inl
            ((ih (steps.has complete has) others).mpr first))⟩)⟩

/-- A pointer offset is the exact address from position zero, cut to a word. -/
theorem pointerOffset_eq_ok_iff {source : TypeId} {indices : List Operand} {offset : BitVec 64} :
    program.pointerOffset source indices = .ok offset ↔
      ∃ exact reached, Addresses program 0 source indices exact reached
        ∧ offset = BitVec.ofInt 64 exact := by
  rw [← offsetFrom_zero, offsetFrom_eq_ok_iff]

/-- A fault is that of the first index that does not lead on. -/
theorem pointerOffset_eq_error_iff (complete : program.Complete) {source : TypeId}
    {indices : List Operand} (has : program.types.Has source)
    (inRange : ∀ index ∈ indices, index.InRange program) {fault : OffsetFault} :
    program.pointerOffset source indices = .error fault ↔
      FirstFault program 0 source indices fault := by
  rw [← offsetFrom_zero, offsetFrom_eq_error_iff complete has inRange]

/-! ## Splitting paths

Behind the first index positions do not matter, so a path may be left and taken up again: the second
half begins with a zero, which steps over no object. -/

theorem Steps.shift {position : Nat} {type part : TypeId} {value bytes : Int} (other : Nat)
    (steps : Steps program (position + 1) type value bytes part) :
    Steps program (other + 1) type value bytes part := by
  cases steps with
  | field found laid there starts => exact .field found laid there starts
  | element found sized => exact .element found sized

/-- Behind the first index it does not matter how many there were. -/
theorem Addresses.shift {position : Nat} {type reached : TypeId} {indices : List Operand}
    {exact : Int} (other : Nat)
    (addresses : Addresses program (position + 1) type indices exact reached) :
    Addresses program (other + 1) type indices exact reached := by
  induction indices generalizing position other type exact with
  | nil =>
    cases addresses
    exact .nil _ _
  | cons index rest ih =>
    cases addresses with
    | cons reads steps later => exact .cons reads (steps.shift other) (ih (other + 1) later)

/-- The address of two paths, one behind the other, is the sum. -/
theorem addresses_append_iff {position : Nat} {type reached : TypeId} {front back : List Operand}
    {exact : Int} : Addresses program position type (front ++ back) exact reached ↔
      ∃ first middle second, Addresses program position type front first middle
        ∧ Addresses program (position + front.length) middle back second reached
        ∧ exact = first + second := by
  induction front generalizing position type exact with
  | nil =>
    constructor
    · intro addresses
      exact ⟨0, type, exact, .nil _ _, addresses, (Int.zero_add exact).symm⟩
    · rintro ⟨_, _, second, ⟨⟩, addresses, rfl⟩
      rwa [Int.zero_add]
  | cons index rest ih =>
    have place : position + (index :: rest).length = position + 1 + rest.length := by
      rw [List.length_cons]
      omega
    rw [place, List.cons_append]
    constructor
    · intro addresses
      cases addresses with
      | cons reads steps later =>
        obtain ⟨first, middle, second, before, after, rfl⟩ := ih.mp later
        exact ⟨_, middle, second, .cons reads steps before, after, (Int.add_assoc _ _ _).symm⟩
    · rintro ⟨_, middle, second, before, after, rfl⟩
      cases before with
      | cons reads steps before =>
        rw [Int.add_assoc]
        exact .cons reads steps (ih.mpr ⟨_, middle, second, before, after, rfl⟩)

/-- Where a path leads has a size if the first index found one. -/
theorem Addresses.sized {position : Nat} {type reached : TypeId} {indices : List Operand}
    {exact : Int} (start : ∃ size, program.types.allocSize? program.layout type = .ok (some size))
    (addresses : Addresses program position type indices exact reached) :
    ∃ size, program.types.allocSize? program.layout reached = .ok (some size) := by
  induction addresses with
  | nil => exact start
  | cons _ steps _ ih => exact ih steps.sized

/-- A path may be left anywhere behind its first index, and begun again there with a zero. -/
theorem addresses_split_iff {source reached : TypeId} {first zero : Operand}
    {front back : List Operand} {exact : Int} (reads : Reads program zero 0) :
    Addresses program 0 source (first :: (front ++ back)) exact reached ↔
      ∃ before middle after, Addresses program 0 source (first :: front) before middle
        ∧ Addresses program 0 middle (zero :: back) after reached ∧ exact = before + after := by
  rw [← List.cons_append, addresses_append_iff]
  constructor
  · rintro ⟨before, middle, after, addresses, later, rfl⟩
    have ⟨size, sized⟩ : ∃ size, program.types.allocSize? program.layout middle
        = .ok (some size) := by
      cases addresses with
      | cons _ steps rest => exact rest.sized steps.sized
    rw [List.length_cons, ← Nat.add_assoc] at later
    have again := Addresses.cons reads (.object sized) (later.shift 0)
    rw [Int.zero_mul, Int.zero_add] at again
    exact ⟨before, middle, after, addresses, again, rfl⟩
  · rintro ⟨before, middle, _, addresses, again, rfl⟩
    cases again with
    | cons other steps later =>
      cases steps with
      | object sized =>
        obtain ⟨bits, read, rfl⟩ := other.exists_indexValue
        obtain ⟨zeros, same, none⟩ := reads.exists_indexValue
        cases read.symm.trans same
        rw [none, Int.zero_mul, Int.zero_add]
        rw [List.length_cons, ← Nat.add_assoc]
        exact ⟨before, middle, _, addresses, later.shift _, rfl⟩

/-! ## The main statement

The three parts, about an offset that is answered, about a fault, and about paths that are split,
are the lemmas above for paths that begin at position zero. -/

/-- **Pointer offsets are exact.**  An offset is answered exactly if every index in turn leads on,
and then it is the exact address modulo two to the 64.  Otherwise the fault is that of the first
index that does not lead on, and it is reported with the instruction.  The offset of a path is
that of its front and that of its back behind a zero, taken from the type that the front reaches. -/
theorem pointerOffset_exact (built : program.Built) {source : TypeId}
    (has : program.types.Has source) {indices : List Operand}
    (inRange : ∀ index ∈ indices, index.InRange program) :
    (∀ offset, program.pointerOffset source indices = .ok offset ↔
      ∃ exact reached, Addresses program 0 source indices exact reached
        ∧ offset = BitVec.ofInt 64 exact)
    ∧ (∀ fault, program.pointerOffset source indices = .error fault ↔
      FirstFault program 0 source indices fault)
    ∧ (∀ scope id text state, program.instText id = .ok text →
      (program.encodeOffset scope id source indices).run.run state =
        ((program.pointerOffset source indices).mapError (·.report program scope.name text), state))
    ∧ ∀ first front back zero, indices = first :: (front ++ back) → Reads program zero 0 →
      ∀ offset, program.pointerOffset source indices = .ok offset ↔
        ∃ exact middle before after, Addresses program 0 source (first :: front) exact middle
          ∧ program.pointerOffset source (first :: front) = .ok before
          ∧ program.pointerOffset middle (zero :: back) = .ok after ∧ offset = before + after := by
  refine ⟨fun offset => pointerOffset_eq_ok_iff,
    fun fault => pointerOffset_eq_error_iff built.complete has inRange, ?_, ?_⟩
  · intro scope id text state written
    rw [encodeOffset]
    cases program.pointerOffset source indices with
    | ok offset => rfl
    | error fault =>
      cases fault with
      | dangling handle => rfl
      | nonConstant =>
        rw [written]
        rfl
      | invalid index type =>
        rw [written]
        rfl
  -- a path is cut after any of its indices, and the rest starts at zero in the type reached there
  · rintro first front back zero rfl reads offset
    constructor
    · intro h
      obtain ⟨_, reached, addresses, rfl⟩ := pointerOffset_eq_ok_iff.mp h
      obtain ⟨exact, middle, more, front, back, rfl⟩ := (addresses_split_iff reads).mp addresses
      exact ⟨exact, middle, _, _, front, pointerOffset_eq_ok_iff.mpr ⟨exact, middle, front, rfl⟩,
        pointerOffset_eq_ok_iff.mpr ⟨more, reached, back, rfl⟩, BitVec.ofInt_add exact more⟩
    · rintro ⟨exact, middle, before, _, front, start, again, rfl⟩
      obtain ⟨more, reached, back, rfl⟩ := pointerOffset_eq_ok_iff.mp again
      have same : before = BitVec.ofInt 64 exact :=
        Except.ok.inj (start.symm.trans (pointerOffset_eq_ok_iff.mpr ⟨exact, middle, front, rfl⟩))
      rw [same, ← BitVec.ofInt_add]
      exact pointerOffset_eq_ok_iff.mpr
        ⟨_, reached, (addresses_split_iff reads).mpr ⟨exact, middle, more, front, back, rfl⟩, rfl⟩

/-! ## A program with nested types

A path that goes through a struct into an array, with padding on the way. -/

/-- The types `[2 x i32]` and `\x7b i8, [2 x i32] \x7d`, and indices into them. -/
def nested : Program where
  layout := .standard
  types := ⟨#[.void, .int 1, .int 8, .int 32, .int 64, .ptr 0, .array .i32 2,
    .struct ⟨none, [.i8, ⟨6⟩], false, true⟩]⟩
  constants := ⟨#[.int .i32 0, .int .i32 1]⟩
  globals := #[]
  functions := #[]
  blocks := #[]
  insts := #[]
  args := #[]

/-- The example is made by operations, in the order of its arenas. -/
theorem built_nested : nested.Built := by
  have array := (Built.empty .standard).step
    (.types (.intern (.array .i32 2) (by decide +kernel)))
  have struct := array.step
    (.types (.intern (.struct ⟨none, [.i8, ⟨6⟩], false, true⟩) (by decide +kernel)))
  have zero := struct.step (@Step.internConstant _ (.int .i32 0) (by
    show Types.Has _ _
    decide +kernel))
  have one := zero.step (@Step.internConstant _ (.int .i32 1) (by
    show Types.Has _ _
    decide +kernel))
  exact Eq.mp (congrArg Built (by decide +kernel)) one

/-- The second element of the array that is the second field: three bytes of padding behind the
first field, which is one byte, and four for the element in front. -/
theorem pointerOffset_exact_nested :
    nested.Built ∧ nested.types.Has ⟨7⟩
      ∧ (∀ index ∈ [Operand.const ⟨0⟩, .const ⟨1⟩, .const ⟨1⟩], index.InRange nested)
      ∧ (∃ exact reached, Addresses nested 0 ⟨7⟩ [.const ⟨0⟩, .const ⟨1⟩, .const ⟨1⟩] exact reached
        ∧ 8 = BitVec.ofInt 64 exact) := by
  have has : nested.types.Has ⟨7⟩ := by decide +kernel
  have inRange : ∀ index ∈ [Operand.const ⟨0⟩, .const ⟨1⟩, .const ⟨1⟩], index.InRange nested := by
    decide +kernel
  have offset : nested.pointerOffset ⟨7⟩ [.const ⟨0⟩, .const ⟨1⟩, .const ⟨1⟩] = .ok 8 := by
    rfl
  exact ⟨built_nested, has, inRange,
    ((pointerOffset_exact built_nested has inRange).1 8).mp offset⟩

end Program

end IrStream
