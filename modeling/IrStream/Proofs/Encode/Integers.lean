import IrStream.Proofs.Document.Literal
import IrStream.Proofs.Encode.Encodable
import IrStream.Proofs.Encode.Resolution

/-!
# Integers in the constants section

An integer constant gets into the stream with one byte for each eight bits of its type, so nothing
of its value is lost as long as the value lies below two to the width.  `constInt` cuts every value
to that (`Program.SoundInts`), and the offset of a `getelementptr` has 64 bits and the type `i64`.

The table of constants has no entry twice, and an offset that is an `i64` of the program is the same
constant.  With the value in full, integers that differ therefore differ in their type or in their
bytes.  All of this is `Stream.KeepsInts`, which is proved in `Stream.Encodes.keepsInts`.

Three statements are in that structure, and each has its own reason.

* **Lossless.**  The payload has as many bytes as the width asks for, and the little-endian number
  of the payload is the stored value.  For that the value must not have bits beyond its width, and
  here the program matters: nothing in the stream could tell what was cut.
* **Shared.**  An offset becomes a constant on the way, in no arena of the program.  If the program
  has an `i64` of that value, the table has the constant already, and the position is the one of the
  program's own constant.
* **Once.**  Two records of integers with the same type and payload are the same record, because the
  payload determines the value (`ConstantRecord.Spells.bits_eq`) and the table holds a value once.

The witness is a program that stores the number that is also its offset.  Its constants section has
one entry for the two, of eight bytes.
-/

set_option autoImplicit false

namespace IrStream

/-! ## Bytes of an integer

`Spells` is what the payload of an integer is: so many bytes, and their little-endian number. -/

/-- The bytes are those of an integer of that width. -/
structure ConstantRecord.Spells (record : ConstantRecord) (width : UInt32) (bits : BitVec 128) :
    Prop where
  /-- As many bytes as the width takes, the last of them padded with zero bits. -/
  length : record.payload.length = (width.toNat + 7) / 8
  /-- Read from the least significant byte on. -/
  value : ofLittleEndian record.payload = bits.toNat
  /-- No padding bit is set. -/
  small : bits.toNat < 2 ^ width.toNat

/-- As many bytes as a width needs hold every integer of that width. -/
theorem ofLittleEndian_intBytes {width : UInt32} {value : Nat} (small : value < 2 ^ width.toNat) :
    ofLittleEndian (littleEndian (intBytes width) value) = value := by
  have enough : width.toNat ≤ 8 * intBytes width := by
    rw [intBytes]
    omega
  rw [ofLittleEndian_littleEndian, Nat.one_shiftLeft]
  exact Nat.mod_eq_of_lt (small.trans_le (Nat.pow_le_pow_right Nat.two_pos enough))

namespace ConstantRecord.Spells

variable {record : ConstantRecord} {width : UInt32} {first second : BitVec 128}

theorem bits_eq (h : record.Spells width first) (other : record.Spells width second) :
    first = second :=
  BitVec.eq_of_toNat_eq (h.value.symm.trans other.value)

end ConstantRecord.Spells

namespace Program

variable {program : Program} {tables : EncodeState}

theorem DescribesConstant.spells {type : TypeId} {bits : BitVec 128} {record : ConstantRecord}
    {width : UInt32} (h : program.DescribesConstant tables (.int type bits) record)
    (found : program.types.shape type = .ok (.int width)) (small : bits.toNat < 2 ^ width.toNat) :
    record.Spells width bits := by
  have payload : record.payload = littleEndian (intBytes width) bits.toNat := by
    rw [h.2, Program.payload, found]
  constructor
  · rw [payload, length_littleEndian, intBytes]
  · rw [payload, ofLittleEndian_intBytes small]
  · exact small

/-! ## Programs with such integers

An entry of the table comes from the program or is an offset, and in both cases it has no bit too
many. -/

/-- Every integer was made by `constInt`. -/
structure SoundInts (program : Program) : Prop where
  /-- Nothing but the public operations made the program. -/
  built : program.Built
  /-- Interning `.int` by hand could leave bits above the width. -/
  int : ∀ {id type bits}, program.constant id = .ok (.int type bits) → program.MadeInt id

/-- What is asked of numbers includes what is asked of integers. -/
theorem SoundNumbers.soundInts (sound : program.SoundNumbers) : program.SoundInts :=
  ⟨sound.built, sound.int⟩

/-- The type of offsets is one of those that every arena begins with. -/
theorem Built.shape_i64 (built : program.Built) : program.types.shape .i64 = .ok (.int 64) :=
  built.types.regular.basic rfl

/-- The offset of a `getelementptr` is an integer of its type. -/
theorem Built.proper_offsetConstant (built : program.Built) (offset : BitVec 64) :
    (offsetConstant offset).Proper program := by
  refine ⟨64, built.shape_i64, by decide, ?_⟩
  rw [BitVec.toNat_setWidth]
  exact (Nat.mod_le _ _).trans_lt offset.isLt

namespace SoundInts

variable (sound : program.SoundInts)
include sound

theorem proper {id : ConstId} {constant : Constant} (found : program.constant id = .ok constant) :
    constant.Proper program := by
  cases constant with
  | int type bits =>
    obtain ⟨type, width, value, shape, narrow, made⟩ := (sound.int found).exists_truncate
    cases found.symm.trans made
    exact ⟨width, shape, narrow, toNat_truncate_lt value width.toNat⟩
  | _ => trivial

/-- Wherever an entry of the constants section comes from, it is an integer of its type. -/
theorem proper_of_uses {constant : Constant} (used : program.UsesConstant constant) :
    constant.Proper program := by
  cases used with
  | operand _ _ found _ => exact sound.proper found
  | offset => exact sound.built.proper_offsetConstant _
  | initializer _ _ _ value => exact sound.proper value

/-- An `i64` that equals an offset is the constant that the offset becomes. -/
theorem eq_offsetConstant {id : ConstId} {type : TypeId} {bits : BitVec 128}
    (found : program.constant id = .ok (.int type bits))
    (wide : program.types.shape type = .ok (.int 64)) :
    .int type bits = offsetConstant (bits.setWidth 64) := by
  obtain ⟨width, shape, -, small⟩ := sound.proper found
  cases wide.symm.trans shape
  have same : type = .i64 :=
    sound.built.types.regular.canonical wide sound.built.shape_i64 rfl
  have kept : (bits.setWidth 64).setWidth 128 = bits := truncate_of_lt small
  rw [offsetConstant, kept, same]

end SoundInts

/-- The recipe of a `getelementptr` is its base and its offset. -/
theorem sources_of_recipe? {id : InstId} {inst : Inst} {recipe : Recipe} {source : TypeId}
    {base : Operand} {indices : List Operand} {offset : BitVec 64}
    (kind : inst.kind = .getElementPtr source) (operands : inst.operands = base :: indices)
    (folded : program.pointerOffset source indices = .ok offset)
    (made : program.recipe? id inst = some recipe) :
    recipe = ⟨.ptrAdd, [.operand base, .constant (offsetConstant offset)]⟩ := by
  rw [recipe?, kind, operands] at made
  dsimp only at made
  rw [folded] at made
  exact (Option.some.inj made).symm

end Program

/-! ## The section -/

/-- The constants section holds the integers of a program in full, and each of them once. -/
structure Stream.KeepsInts (program : Program) (tables : EncodeState) (stream : Stream) : Prop where
  /-- The record of an integer has the width of its type and the bytes of its value. -/
  lossless : ∀ {index type bits}, tables.constants.get? index = some (.int type bits) →
    ∃ record width, stream.constants[index]? = some record
      ∧ program.types.shape type = .ok (.int width) ∧ tables.types.IsAt record.type type
      ∧ stream.types[record.type]? = some (.integer width) ∧ record.Spells width bits
  /-- The offset of a `getelementptr` that equals an `i64` of the program is that constant. -/
  shared : ∀ {func function here id inst source base indices offset},
    program.Emits func function here id inst → inst.kind = .getElementPtr source →
    inst.operands = base :: indices → program.pointerOffset source indices = .ok offset →
    ∀ {constId type bits}, program.constant constId = .ok (.int type bits) →
      program.types.shape type = .ok (.int 64) → bits.setWidth 64 = offset →
      ∃ owner record first index, stream.functions[func.index]? = some owner
        ∧ owner.instAt? here = some record ∧ record.opcode = .ptrAdd
        ∧ record.operands = [first, .constant index]
        ∧ tables.constants.IsAt index (.int type bits)
  /-- No two integers have the same record, which is a type and bytes. -/
  distinct : ∀ {first second type other bits value record},
    tables.constants.get? first = some (.int type bits) →
    tables.constants.get? second = some (.int other value) →
    stream.constants[first]? = some record → stream.constants[second]? = some record →
    first = second

namespace Stream.Encodes

variable {program : Program} {word : WordSize} {tables : EncodeState} {stream : Stream}

open Program

/-- The record of an integer spells its value in as many bytes as its type asks for. -/
theorem lossless (h : stream.Encodes program word tables) (sound : program.SoundInts)
    {index : Nat} {type : TypeId} {bits : BitVec 128}
    (entry : tables.constants.get? index = some (.int type bits)) :
    ∃ record width, stream.constants[index]? = some record
      ∧ program.types.shape type = .ok (.int width) ∧ tables.types.IsAt record.type type
      ∧ stream.types[record.type]? = some (.integer width) ∧ record.Spells width bits := by
  rw [← Table.getElem?_toList] at entry
  have used := h.within.constants _ (List.mem_of_getElem? entry)
  obtain ⟨width, found, -, small⟩ := sound.proper_of_uses used
  obtain ⟨record, there, described⟩ := exists_right_of_forall₂ h.describes.constants entry
  have isAt : tables.types.IsAt record.type type := h.sound.types.isAt described.1
  obtain ⟨typeRecord, listed, spelled⟩ := exists_right_of_forall₂ h.describes.types
    ((Table.getElem?_toList _ _).trans isAt.1)
  have integer : typeRecord = .integer width := by
    cases spelled <;> simp_all
  exact ⟨record, width, there, found, isAt, integer ▸ listed, described.spells found small⟩

/-- An offset that the program has as a constant shares its entry. -/
theorem shared (h : stream.Encodes program word tables) (sound : program.SoundInts)
    {func : FuncId} {function : Function} {here : Location} {id : InstId} {inst : Inst}
    {source : TypeId} {base : Operand} {indices : List Operand} {offset : BitVec 64}
    (emits : program.Emits func function here id inst) (kind : inst.kind = .getElementPtr source)
    (operands : inst.operands = base :: indices)
    (folded : program.pointerOffset source indices = .ok offset) {constId : ConstId}
    {type : TypeId} {bits : BitVec 128} (found : program.constant constId = .ok (.int type bits))
    (wide : program.types.shape type = .ok (.int 64)) (same : bits.setWidth 64 = offset) :
    ∃ owner record first index, stream.functions[func.index]? = some owner
      ∧ owner.instAt? here = some record ∧ record.opcode = .ptrAdd
      ∧ record.operands = [first, .constant index]
      ∧ tables.constants.IsAt index (.int type bits) := by
  obtain ⟨owner, listed, described⟩ :=
    exists_right_of_forall₂ h.describes.functions (getElem?_functionIds emits.found)
  obtain ⟨record, there, inst, recipe, known, made, follows⟩ :=
    described.exists_record emits.found emits.located
  cases emits.known.symm.trans known
  cases sources_of_recipe? kind operands folded made
  obtain ⟨first, rest, -, others, written⟩ := List.forall₂_cons_left_iff.mp follows.operands
  obtain ⟨second, nothing, denotes, none, rfl⟩ := List.forall₂_cons_left_iff.mp others
  cases List.forall₂_nil_left_iff.mp none
  cases denotes with
  | entry position =>
    rw [← same, ← sound.eq_offsetConstant found wide] at position
    exact ⟨owner, record, first, _, listed, there, follows.opcode, written,
      h.sound.constants.isAt position⟩

/-- **The constants section of an encoded program** holds its integers in full, and each once. -/
theorem keepsInts (h : stream.Encodes program word tables) (sound : program.SoundInts) :
    stream.KeepsInts program tables where
  lossless := h.lossless sound
  shared := h.shared sound
  distinct {first second type other bits value record} entry again there here := by
    obtain ⟨_, width, listed, found, isAt, -, spells⟩ := h.lossless sound entry
    cases there.symm.trans listed
    obtain ⟨_, another, listed, typed, also, -, spelled⟩ := h.lossless sound again
    cases here.symm.trans listed
    cases isAt.1.symm.trans also.1
    cases found.symm.trans typed
    cases spells.bits_eq spelled
    exact Option.some.inj ((h.sound.constants.position? entry).symm.trans
      (h.sound.constants.position? again))

end Stream.Encodes

/-! ## Encoded programs -/

/-- **Encoded integers are lossless, and none is there twice.**  Each integer of the constants
section has the bytes that its type needs, which spell its value; an offset that equals an `i64` of
the program is that constant's entry; and no two integers have the same type and the same bytes.
This is so in every program whose integers were made by `constInt`, as they are in the program of a
document. -/
theorem integers_of_encode :
    (∀ {program : Program} {word : WordSize} {module : EncodedModule}, program.SoundInts →
      program.encode word = .ok module →
        ∃ stream, Stream.read? word module.bytes = some stream
          ∧ stream.Resolves program (program.finalTables word)
          ∧ stream.KeepsInts program (program.finalTables word))
    ∧ ∀ {document : Document} {program : Program}, document.toProgram = .ok program →
      program.SoundInts := by
  constructor
  · intro program word module sound outcome
    obtain ⟨stream, read, -, encodes⟩ := Program.encodes_of_encode sound.built outcome
    exact ⟨stream, read, encodes.describes.resolves encodes.sound sound.built.consistent.1,
      encodes.keepsInts sound⟩
  · intro document program loaded
    exact (named_of_toProgram loaded).1.soundNumbers.soundInts

/-- A document that stores the offset of its second element. -/
def Document.nextElement : Document where
  layout := none
  structs := []
  globals := []
  functions := [{
    name := "f"
    params := [⟨some "p", .text "ptr"⟩]
    ret := none
    vararg := false
    blocks := [⟨none, [
      ⟨none, "store", none, [.text "i64 8", .text "%p"], none, none, none⟩,
      ⟨some "q", "getelementptr", none, [.text "%p", .text "i32 1"], none, some (.text "i64"),
        none⟩,
      ⟨none, "ret", none, [], none, none, none⟩]⟩] }]

/-- The program that the document stands for. -/
def Program.nextElement : Program where
  layout := .standard
  types := ⟨#[.void, .int 1, .int 8, .int 32, .int 64, .ptr 0, .func [.ptr] .void false]⟩
  constants := ⟨#[.int .i64 8, .int .i32 1]⟩
  globals := #[]
  functions := #[⟨"f", ⟨6⟩, [⟨0⟩], [⟨0⟩]⟩]
  blocks := #[⟨⟨0⟩, none, [⟨0⟩, ⟨1⟩, ⟨2⟩]⟩]
  insts := #[
    ⟨.store, .void, [.const ⟨0⟩, .arg ⟨0⟩], none, ⟨0⟩⟩,
    ⟨.getElementPtr .i64, .ptr, [.arg ⟨0⟩, .const ⟨1⟩], some "q", ⟨0⟩⟩,
    ⟨.ret, .void, [], none, ⟨0⟩⟩]
  args := #[⟨⟨0⟩, 0, .ptr, some "p"⟩]

/-- The stored number and the offset are one entry of eight bytes. -/
theorem integers_of_encode_nextElement :
    Document.nextElement.toProgram = .ok Program.nextElement
      ∧ ∃ module stream owner inst base record,
        Program.nextElement.encode .eight = .ok module
          ∧ Stream.read? .eight module.bytes = some stream
          ∧ stream.functions[0]? = some owner ∧ owner.instAt? ⟨0, 1⟩ = some inst
          ∧ inst.operands = [base, .constant 0] ∧ stream.constants[0]? = some record
          ∧ record.payload.length = 8 ∧ ofLittleEndian record.payload = 8 := by
  have loaded : Document.nextElement.toProgram = .ok Program.nextElement := by decide +kernel
  have encodes : (Program.nextElement.encode .eight).toOption.any (fun _ => true) = true := by
    decide +kernel
  obtain ⟨module, outcome, -⟩ := exists_of_any_toOption encodes
  obtain ⟨stream, read, -, keeps⟩ := integers_of_encode.1 (integers_of_encode.2 loaded) outcome
  have first : (Program.nextElement.finalTables .eight).constants.get? 0
      = some (.int .i64 8) := by
    decide +kernel
  obtain ⟨record, width, there, found, -, -, spells⟩ := keeps.lossless first
  cases found.symm.trans (show Program.nextElement.types.shape .i64 = .ok (.int 64) from rfl)
  have emits : Program.nextElement.Emits ⟨0⟩ ⟨"f", ⟨6⟩, [⟨0⟩], [⟨0⟩]⟩ ⟨0, 1⟩ ⟨1⟩
      ⟨.getElementPtr .i64, .ptr, [.arg ⟨0⟩, .const ⟨1⟩], some "q", ⟨0⟩⟩ :=
    ⟨rfl, by decide +kernel, rfl⟩
  have folded : Program.nextElement.pointerOffset .i64 [.const ⟨1⟩] = .ok 8 := by decide +kernel
  have stored : Program.nextElement.constant ⟨0⟩ = .ok (.int .i64 8) := rfl
  obtain ⟨owner, inst, base, index, listed, located, -, operands, -, only⟩ :=
    keeps.shared emits rfl rfl folded stored rfl rfl
  cases only 0 first
  exact ⟨loaded, module, stream, owner, inst, base, record, outcome, read, listed, located,
    operands, there, spells.length, spells.value⟩

end IrStream
