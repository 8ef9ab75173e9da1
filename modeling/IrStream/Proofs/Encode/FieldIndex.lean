import IrStream.Proofs.Document.Pending
import IrStream.Proofs.Encode.Encodable
import Mathlib.Algebra.Group.Int.Defs

/-!
# Indices that select fields

Behind its first index a `getelementptr` may reach a struct, and the index there selects a field
(`Program.SelectsAt`).  The index is cut to 64 bits before it is compared with the number of fields,
so what is compared is the remainder of its value, not the value:

* an index that has no field, because its remainder is negative or too large, stops the encoder
  (`Program.Rejects`);
* in types of at most 64 bits the remainder is the value, and no index that is out of range is
  overlooked;
* in wider types it is not.  An index whose remainder is in range selects the field with that
  number, and the offset of that field is what the stream holds.

The three cases together say exactly which indices are accepted, for every width and every value,
and the last one comes with a document in which it happens (`fieldIndex_exact_wideIndex`): a number
of 65 bits selects the second field of two.

What an index means is known from `Encode/Offset.lean`, where it is the number that the index
`Program.Reads`.  Here the number is compared with the fields, and the outcome is carried up to the
program.  `Emits.rejects` does that once: a fault of the indices of an emitted instruction, the
first one, stops the encoder at the latest there.  `Rejects` says *at the latest*, because an
instruction further up may have stopped it before.
-/

set_option autoImplicit false

namespace IrStream

namespace Program

/-- An operand is an integer constant of a type of that many bits. -/
inductive Counts (program : Program) : Operand → UInt32 → Int → Prop
  | intro {id : ConstId} {type : TypeId} {bits : BitVec 128} {width : UInt32}
      (found : program.constant id = .ok (.int type bits))
      (typed : program.types.shape type = .ok (.int width)) :
      Counts program (.const id) width (signExtend bits width.toNat)

/-- The index at `position` selects a field of a struct by a number. -/
structure SelectsAt (program : Program) (source : TypeId) (indices : List Operand) (position : Nat)
    (type : TypeId) (shape : StructShape) (width : UInt32) (value : Int) : Prop where
  /-- The first index selects no field. -/
  later : 0 < position
  /-- The indices before it lead to the struct. -/
  reached : ∃ exact, Addresses program 0 source (indices.take position) exact type
  /-- The type at the position is a struct. -/
  struct : program.types.shape type = .ok (.struct shape)
  /-- The number is the sign-extended value, before anything is cut off. -/
  index : ∃ index, indices[position]? = some index ∧ program.Counts index width value

/-- A program is not encoded because the index at `position` of an instruction does not address
a type: at the latest, encoding stops at the instruction, wherever it is met. -/
def Rejects (program : Program) (word : WordSize) (id : InstId) (position : Nat) (type : TypeId) :
    Prop :=
  (∃ error, program.encode word = .error error)
    ∧ ∀ (scope : FunctionScope) (text : String) (state : EncodeState),
      program.instText id = .ok text →
      (program.encodeInst word scope id).run.run state
        = (.error (.invalidOffsetIndex scope.name position (program.types.text type) text), state)

variable {program : Program}

/-- An index stands for the remainder of its value. -/
theorem Counts.reads {index : Operand} {width : UInt32} {value : Int}
    (counts : program.Counts index width value) : Reads program index (value.bmod (2 ^ 64)) := by
  obtain ⟨found, typed⟩ := counts
  exact .intro found typed

/-- Behind indices that lead on, the first fault is that of the others. -/
theorem Addresses.firstFault {position : Nat} {type middle : TypeId} {front back : List Operand}
    {exact : Int} {fault : OffsetFault}
    (addresses : Addresses program position type front exact middle)
    (first : FirstFault program (position + front.length) middle back fault) :
    FirstFault program position type (front ++ back) fault := by
  induction addresses with
  | nil => exact first
  | @cons position _ _ _ index rest _ _ _ reads steps _ ih =>
    have place : position + (index :: rest).length = position + 1 + rest.length := by
      rw [List.length_cons]
      omega
    exact .later reads steps (ih (place ▸ first))

/-- Indices lead to what has a size. -/
theorem Addresses.sized_of_ne_nil {source type : TypeId} {indices : List Operand} {exact : Int}
    (addresses : Addresses program 0 source indices exact type) (some : indices ≠ []) :
    ∃ size, program.types.allocSize? program.layout type = .ok (.some size) := by
  cases addresses with
  | nil => exact absurd rfl some
  | cons _ steps rest => exact rest.sized steps.sized

/-- A number that is out of range selects no field. -/
theorem not_steps_of_struct {position : Nat} {type : TypeId} {shape : StructShape} {number : Int}
    (struct : program.types.shape type = .ok (.struct shape))
    (outside : number < 0 ∨ (shape.fields.length : Int) ≤ number) (bytes : Int) (part : TypeId) :
    ¬ Steps program (position + 1) type number bytes part := by
  intro steps
  cases steps with
  | field found _ there _ =>
    cases struct.symm.trans found
    have below := (List.getElem?_eq_some_iff.mp there).1
    omega
  | element found => cases struct.symm.trans found

namespace SelectsAt

variable {source type : TypeId} {indices : List Operand} {position : Nat} {shape : StructShape}
  {width : UInt32} {value : Int}

/-- A struct that indices lead to has a layout, with an offset for each field. -/
theorem exists_layout (h : program.SelectsAt source indices position type shape width value) :
    ∃ layout, program.types.structLayout? program.layout type = .ok (some layout)
      ∧ layout.offsets.length = shape.fields.length := by
  obtain ⟨later, ⟨exact, addresses⟩, struct, index, there, -⟩ := h
  have some : indices.take position ≠ [] := by
    have below := (List.getElem?_eq_some_iff.mp there).1
    rw [Ne, ← List.length_eq_zero_iff, List.length_take]
    omega
  obtain ⟨size, sized⟩ := addresses.sized_of_ne_nil some
  obtain ⟨layout, laid, -⟩ := Types.exists_structLayout? struct sized
  exact ⟨layout, laid, Types.length_offsets_of_structLayout? struct laid⟩

/-- The fault of an index that is out of range is the first one. -/
theorem firstFault (h : program.SelectsAt source indices position type shape width value)
    (outside : value.bmod (2 ^ 64) < 0
      ∨ (shape.fields.length : Int) ≤ value.bmod (2 ^ 64)) :
    FirstFault program 0 source indices (.invalid position type) := by
  obtain ⟨later, ⟨exact, addresses⟩, struct, index, there, counts⟩ := h
  obtain ⟨below, here⟩ := List.getElem?_eq_some_iff.mp there
  have length : 0 + (indices.take position).length = position := by
    rw [List.length_take]
    omega
  have first : FirstFault program position type (indices.drop position)
      (.invalid position type) := by
    rw [List.drop_eq_getElem_cons below, here]
    obtain ⟨before, rfl⟩ := Nat.exists_eq_add_one.mpr later
    exact .invalid counts.reads (not_steps_of_struct struct outside)
  have whole := addresses.firstFault (length.symm ▸ first)
  rwa [length, List.take_append_drop] at whole

/-- An index whose remainder is in range selects the field with that number. -/
theorem selected (h : program.SelectsAt source indices position type shape width value)
    {number : Nat} (remainder : value.bmod (2 ^ 64) = number)
    (inside : number < shape.fields.length) :
    ∃ before layout offset, program.pointerOffset source (indices.take position) = .ok before
      ∧ program.types.structLayout? program.layout type = .ok (some layout)
      ∧ layout.offsets[number]? = some offset
      ∧ program.pointerOffset source (indices.take (position + 1))
        = .ok (before + BitVec.ofNat 64 offset) := by
  obtain ⟨layout, laid, length⟩ := h.exists_layout
  obtain ⟨later, ⟨exact, addresses⟩, struct, index, there, counts⟩ := h
  have below := (List.getElem?_eq_some_iff.mp there).1
  have starts := List.getElem?_eq_getElem (length.symm ▸ inside)
  have reads := counts.reads
  rw [remainder] at reads
  have step : Addresses program (0 + (indices.take position).length) type [index]
      (layout.offsets[number] + 0) shape.fields[number] := by
    rw [List.length_take, Nat.zero_add, Nat.min_eq_left (Nat.le_of_lt below)]
    obtain ⟨before, rfl⟩ := Nat.exists_eq_add_one.mpr later
    exact .cons reads (.field struct laid (List.getElem?_eq_getElem inside) starts) (.nil _ _)
  have whole := addresses_append_iff.mpr ⟨exact, type, _, addresses, step, rfl⟩
  have longer : indices.take (position + 1) = indices.take position ++ [index] := by
    rw [List.take_add_one, there]
    rfl
  rw [← longer, Int.add_zero] at whole
  refine ⟨_, layout, _, pointerOffset_eq_ok_iff.mpr ⟨exact, type, addresses, rfl⟩, laid, starts,
    pointerOffset_eq_ok_iff.mpr ⟨_, _, whole, ?_⟩⟩
  rw [BitVec.ofInt_add, BitVec.ofInt_natCast]

end SelectsAt

variable {word : WordSize} {func : FuncId} {function : Function} {here : Location} {id : InstId}
  {inst : Inst} {source : TypeId} {base : Operand} {indices : List Operand}

/-- The encoder stops at indices that have no offset. -/
theorem encodeInst_of_invalid (known : program.inst id = .ok inst)
    (kind : inst.kind = .getElementPtr source) (operands : inst.operands = base :: indices)
    {position : Nat} {type : TypeId}
    (fault : program.pointerOffset source indices = .error (.invalid position type))
    {text : String} (shown : program.instText id = .ok text) (scope : FunctionScope)
    (state : EncodeState) :
    (program.encodeInst word scope id).run.run state
      = (.error (.invalidOffsetIndex scope.name position (program.types.text type) text),
        state) := by
  obtain ⟨_, result, _, name, block⟩ := inst
  cases kind
  cases operands
  rw [encodeInst, known]
  change (program.encodePtrAdd word scope id _ source base indices).run.run state = _
  simp only [encodePtrAdd, encodeOffset, fault, shown]
  rfl

/-- The first fault of the indices of a `getelementptr` stops the encoder. -/
theorem Emits.rejects (emits : program.Emits func function here id inst) (built : program.Built)
    (kind : inst.kind = .getElementPtr source) (operands : inst.operands = base :: indices)
    {position : Nat} {type : TypeId}
    (first : FirstFault program 0 source indices (.invalid position type)) (word : WordSize) :
    program.Rejects word id position type := by
  have has : program.types.Has source := by
    have inRange := built.complete.kind emits.known
    rwa [kind] at inRange
  have inRange : ∀ index ∈ indices, index.InRange program := fun index mem =>
    built.consistent.1.operands emits.known index (by simp [operands, mem])
  have fault := (pointerOffset_eq_error_iff built.complete has inRange).mpr first
  refine ⟨?_, fun scope text state shown =>
    encodeInst_of_invalid emits.known kind operands fault shown scope state⟩
  cases outcome : program.encode word with
  | error error => exact ⟨error, rfl⟩
  | ok module =>
    obtain ⟨tables, stream, encoded⟩ := exists_encodes built outcome
    obtain ⟨exact, reached, addresses⟩ := encoded.wellFormed.offset emits kind operands
    cases fault.symm.trans (pointerOffset_eq_ok_iff.mpr ⟨exact, reached, addresses, rfl⟩)

/-- **Indices select fields by their low 64 bits.**  Take an index that selects from a struct.

* If its remainder is no field number, the program is not encoded: at the latest, encoding stops
  at this instruction, because of this index.
* So it does if the value is no field number and the type of the index has at most 64 bits.
* If the remainder is a field number, the index leads on to the field with that number. -/
theorem fieldIndex_exact (built : program.Built)
    (emits : program.Emits func function here id inst) (kind : inst.kind = .getElementPtr source)
    (operands : inst.operands = base :: indices) {position : Nat} {type : TypeId}
    {shape : StructShape} {width : UInt32} {value : Int}
    (selects : program.SelectsAt source indices position type shape width value)
    (word : WordSize) :
    (value.bmod (2 ^ 64) < 0 ∨ (shape.fields.length : Int) ≤ value.bmod (2 ^ 64) →
      program.Rejects word id position type)
    ∧ (1 ≤ width.toNat → width.toNat ≤ 64 → value < 0 ∨ (shape.fields.length : Int) ≤ value →
      program.Rejects word id position type)
    ∧ ∀ number : Nat, value.bmod (2 ^ 64) = number → number < shape.fields.length →
      ∃ before layout offset, program.pointerOffset source (indices.take position) = .ok before
        ∧ program.types.structLayout? program.layout type = .ok (some layout)
        ∧ layout.offsets[number]? = some offset
        ∧ program.pointerOffset source (indices.take (position + 1))
          = .ok (before + BitVec.ofNat 64 offset) := by
  have rejects (outside : value.bmod (2 ^ 64) < 0
      ∨ (shape.fields.length : Int) ≤ value.bmod (2 ^ 64)) :
      program.Rejects word id position type :=
    emits.rejects built kind operands (selects.firstFault outside) word
  refine ⟨rejects, fun positive narrow outside => rejects ?_,
    fun number remainder inside => selects.selected remainder inside⟩
  have own : value.bmod (2 ^ 64) = value := by
    obtain ⟨_, _, _, _, _, counts⟩ := selects
    cases counts
    exact bmod_signExtend positive narrow
  rwa [own]

end Program

/-- A document in which the second field of a struct of two is selected by a number of 65 bits. -/
def Document.wideIndex : Document where
  layout := none
  structs := []
  globals := []
  functions := [{
    name := "f"
    params := [⟨some "p", .text "ptr"⟩]
    ret := none
    vararg := false
    blocks := [⟨none, [
      ⟨some "q", "getelementptr", none,
        [.text "%p", .text "i32 0", .text "i128 18446744073709551617"], none,
        some (.text "\x7b i32, i32 \x7d"), none⟩,
      ⟨none, "ret", none, [], none, none, none⟩]⟩] }]

/-- The program that the document stands for. -/
def Program.wideIndex : Program where
  layout := .standard
  types := ⟨#[.void, .int 1, .int 8, .int 32, .int 64, .ptr 0, .func [.ptr] .void false,
    .struct ⟨none, [.i32, .i32], false, true⟩, .int 128]⟩
  constants := ⟨#[.int .i32 0, .int ⟨8⟩ 18446744073709551617]⟩
  globals := #[]
  functions := #[⟨"f", ⟨6⟩, [⟨0⟩], [⟨0⟩]⟩]
  blocks := #[⟨⟨0⟩, none, [⟨0⟩, ⟨1⟩]⟩]
  insts := #[
    ⟨.getElementPtr ⟨7⟩, .ptr, [.arg ⟨0⟩, .const ⟨0⟩, .const ⟨1⟩], some "q", ⟨0⟩⟩,
    ⟨.ret, .void, [], none, ⟨0⟩⟩]
  args := #[⟨⟨0⟩, 0, .ptr, some "p"⟩]

namespace Program

/-- The document loads. -/
theorem toProgram_wideIndex : Document.wideIndex.toProgram = .ok wideIndex := by
  decide +kernel

/-- The second field of two, by the number of 65 bits. -/
theorem selectsAt_wideIndex : wideIndex.SelectsAt ⟨7⟩ [.const ⟨0⟩, .const ⟨1⟩] 1 ⟨7⟩
    ⟨none, [.i32, .i32], false, true⟩ 128 (2 ^ 64 + 1) where
  later := Nat.one_pos
  reached := by
    have read : wideIndex.pointerOffset ⟨7⟩ [.const ⟨0⟩] = .ok 0 := by decide +kernel
    obtain ⟨exact, type, addresses, -⟩ := pointerOffset_eq_ok_iff.mp read
    have same : type = ⟨7⟩ := by
      obtain _ | ⟨_, steps, later⟩ := addresses
      cases later
      cases steps
      rfl
    exact ⟨exact, same ▸ addresses⟩
  struct := rfl
  index := by
    have value : (2 ^ 64 + 1 : Int) = signExtend 18446744073709551617 (128 : UInt32).toNat := by
      decide +kernel
    exact ⟨_, rfl, value ▸ .intro rfl rfl⟩

/-- The number is out of range, but encoding succeeds, and the second field is selected. -/
theorem fieldIndex_exact_wideIndex :
    wideIndex.Emits ⟨0⟩ ⟨"f", ⟨6⟩, [⟨0⟩], [⟨0⟩]⟩ ⟨0, 0⟩ ⟨0⟩
        ⟨.getElementPtr ⟨7⟩, .ptr, [.arg ⟨0⟩, .const ⟨0⟩, .const ⟨1⟩], some "q", ⟨0⟩⟩
      ∧ (2 : Int) ≤ 2 ^ 64 + 1 ∧ (∃ module, wideIndex.encode .eight = .ok module)
      ∧ ∃ before layout offset, wideIndex.pointerOffset ⟨7⟩ [.const ⟨0⟩] = .ok before
        ∧ wideIndex.types.structLayout? wideIndex.layout ⟨7⟩ = .ok (some layout)
        ∧ layout.offsets[1]? = some offset
        ∧ wideIndex.pointerOffset ⟨7⟩ [.const ⟨0⟩, .const ⟨1⟩]
          = .ok (before + BitVec.ofNat 64 offset) := by
  have built : wideIndex.Built := (named_of_toProgram toProgram_wideIndex).1.built
  have emits : wideIndex.Emits ⟨0⟩ ⟨"f", ⟨6⟩, [⟨0⟩], [⟨0⟩]⟩ ⟨0, 0⟩ ⟨0⟩
      ⟨.getElementPtr ⟨7⟩, .ptr, [.arg ⟨0⟩, .const ⟨0⟩, .const ⟨1⟩], some "q", ⟨0⟩⟩ :=
    ⟨rfl, by decide +kernel, rfl⟩
  have encodes : (wideIndex.encode .eight).toOption.any (fun _ => true) = true := by
    decide +kernel
  obtain ⟨module, outcome, -⟩ := exists_of_any_toOption encodes
  have remainder : (2 ^ 64 + 1 : Int).bmod (2 ^ 64) = (1 : Nat) := by decide +kernel
  exact ⟨emits, by decide, ⟨module, outcome⟩,
    (fieldIndex_exact built emits rfl rfl selectsAt_wideIndex .eight).2.2 1 remainder
      Nat.one_lt_two⟩

end Program

end IrStream
