import IrStream.Stream.Bytes
import IrStream.Stream.Reading
import Mathlib.Data.List.TakeDrop

/-!
# Streams read back

`Stream.read?` undoes `Stream.toBytes` on every stream whose bytes say all that its records say:
`Stream.Fits` asks that every number fits its field, that no text holds a zero byte and that a
struct has as many offsets as fields.

`Take.Reads` is what the proof is phrased in.  A step reads certain bytes as a value if it takes
exactly these bytes from the front of *any* input; so what one step leaves is what the next one
finds, and the byte strings of two steps in a row are appended (`Take.Reads.bind`).  Behind that
there is one lemma for each kind of field and one for each kind of record.

Quantifying over what comes behind is the whole trick.  With it a proof about a record is a list of
proofs about its fields, in the order of the fields, and no lemma mentions the position at which
something is read.  A text has no length in front of it, so the reader has to find its end; that the
end it finds is the right one is why no zero byte may be in it (`reads_text`).

Sections begin with a count, and a reader that trusted a count could be made to run for a very long
time.  This one refuses a count that is larger than the number of bytes that are left.  It never
refuses a count that was written, because no record is empty (`reads_times`, `reads_records`).
-/

set_option autoImplicit false

namespace IrStream

/-! ## What fits its fields -/

/-- A text that a text field can hold. -/
def NulFree (text : String) : Prop :=
  0 ∉ textBytes text

/-- The numbers and texts of an operand fit their fields. -/
def OperandRecord.Fits (word : WordSize) : OperandRecord → Prop
  | constant index => index ≤ word.maxValue
  | localVariable blockIndex instIndex => blockIndex ≤ word.maxValue ∧ instIndex ≤ word.maxValue
  | type index => index ≤ word.maxValue
  | function index => index ≤ word.maxValue
  | block index => index ≤ word.maxValue
  | arg number => number ≤ word.maxValue
  | global index => index ≤ word.maxValue
  | predicate _ => True
  | unimplemented text => NulFree text

/-- An instruction fits its fields.  The operands are counted in four bytes. -/
structure InstRecord.Fits (word : WordSize) (inst : InstRecord) : Prop where
  /-- The position of the result type is written in a word. -/
  type : inst.type ≤ word.maxValue
  /-- The count has four bytes, whatever the word size is. -/
  count : inst.operands.length < UInt32.size
  /-- So is the index of each operand. -/
  operands : ∀ operand ∈ inst.operands, operand.Fits word

/-- A function fits its fields, with its blocks and their instructions. -/
structure FunctionRecord.Fits (word : WordSize) (function : FunctionRecord) : Prop where
  /-- The name ends at a zero byte, so it has none inside. -/
  name : NulFree function.name
  /-- The index of its type. -/
  type : function.type ≤ word.maxValue
  /-- The number of blocks. -/
  count : function.blocks.length ≤ word.maxValue
  /-- The numbers of instructions in them. -/
  counts : ∀ block ∈ function.blocks, block.length ≤ word.maxValue
  /-- The instructions fit theirs. -/
  insts : ∀ block ∈ function.blocks, ∀ inst ∈ block, inst.Fits word

/-- A constant fits its fields.  The bytes themselves have no limit but their number. -/
structure ConstantRecord.Fits (word : WordSize) (constant : ConstantRecord) : Prop where
  /-- The position of the type is written in a word. -/
  type : constant.type ≤ word.maxValue
  /-- So is the number of bytes. -/
  count : constant.payload.length ≤ word.maxValue

def GlobalRecord.Fits (global : GlobalRecord) : Prop :=
  NulFree global.name

/-- A type fits its fields.  Offsets of a struct have no count of their own, so there have to be as
many as fields. -/
def TypeRecord.Fits (word : WordSize) : TypeRecord → Prop
  | void => True
  | integer _ => True
  | pointer => True
  | function params ret _ =>
    params.length ≤ word.maxValue ∧ (∀ param ∈ params, param ≤ word.maxValue)
      ∧ ret ≤ word.maxValue
  | struct fields bitOffsets =>
    fields.length ≤ word.maxValue ∧ (∀ field ∈ fields, field ≤ word.maxValue)
      ∧ bitOffsets.length = fields.length ∧ (∀ offset ∈ bitOffsets, offset ≤ word.maxValue)
  | unimplemented text => NulFree text

/-- Every record of a stream fits its fields, and every section its count. -/
structure Stream.Fits (word : WordSize) (stream : Stream) : Prop where
  /-- The number of functions is written in a word. -/
  functionCount : stream.functions.length ≤ word.maxValue
  /-- Every function fits its fields. -/
  functions : ∀ function ∈ stream.functions, function.Fits word
  /-- The number of constants is written in a word. -/
  constantCount : stream.constants.length ≤ word.maxValue
  /-- Every constant fits its fields. -/
  constants : ∀ constant ∈ stream.constants, constant.Fits word
  /-- The number of globals is written in a word. -/
  globalCount : stream.globals.length ≤ word.maxValue
  /-- Every global fits its fields. -/
  globals : ∀ global ∈ stream.globals, global.Fits
  /-- The number of types is written in a word. -/
  typeCount : stream.types.length ≤ word.maxValue
  /-- Every type fits its fields. -/
  types : ∀ type ∈ stream.types, type.Fits word

/-! ## Steps and the bytes they take -/

namespace Take

variable {α β : Type} {word : WordSize}

/-- Whatever comes behind `bytes`, the step takes just them and answers `value`. -/
def Reads (step : Take α) (bytes : List UInt8) (value : α) : Prop :=
  ∀ rest, step (bytes ++ rest) = some (value, rest)

theorem Reads.pure (value : α) : Reads (Pure.pure value) [] value := fun _ => rfl

theorem Reads.bind {step : Take α} {next : α → Take β} {front back : List UInt8} {a : α} {b : β}
    (first : Reads step front a) (second : Reads (next a) back b) :
    Reads (step >>= next) (front ++ back) b := by
  intro rest
  have run : (step >>= next) (front ++ back ++ rest)
      = (step (front ++ (back ++ rest))).bind fun result => next result.1 result.2 := by
    rw [List.append_assoc]; rfl
  rw [run, first]
  exact second rest

theorem Reads.map {step : Take α} {bytes : List UInt8} {value : α} (reads : Reads step bytes value)
    (f : α → β) : Reads (step >>= fun a => Pure.pure (f a)) bytes (f value) := by
  have taken : Reads (step >>= fun a => Pure.pure (f a)) (bytes ++ []) (f value) :=
    reads.bind (.pure (f value))
  rwa [List.append_nil] at taken

theorem Reads.lift {answer : Option α} {value : α} (h : answer = some value) :
    Reads (liftM answer) [] value := by
  subst h; exact Reads.pure value

/-! ## Fields -/

theorem reads_byte (byte : UInt8) : Reads Take.byte [byte] byte := fun _ => rfl

theorem reads_bytes (taken : List UInt8) : Reads (bytes taken.length) taken taken := by
  intro rest
  simp [bytes]

theorem reads_tag {ofByte? : UInt8 → Option α} (byte : UInt8) {value : α}
    (h : ofByte? byte = some value) : Reads (tag ofByte?) [byte] value :=
  (reads_byte byte).bind (Reads.lift h)

theorem reads_flag (set : Bool) : Reads flag (flagField set) set := by
  have taken := (reads_byte (if set then 1 else 0)).map (· != 0)
  cases set <;> exact taken

theorem reads_littleEndian {count value : Nat} (h : value < 1 <<< (8 * count)) :
    Reads (bytes count >>= fun taken => pure (ofLittleEndian taken)) (littleEndian count value)
      value := by
  have taken := (reads_bytes (littleEndian count value)).map ofLittleEndian
  rwa [length_littleEndian, ofLittleEndian_littleEndian, Nat.mod_eq_of_lt h] at taken

theorem reads_word (value : UInt32) : Reads Take.word (wordField value) value := by
  have small : value.toNat < 1 <<< (8 * 4) := value.toNat_lt
  have taken := (reads_bytes (littleEndian 4 value.toNat)).map fun taken =>
    UInt32.ofNat (ofLittleEndian taken)
  rwa [length_littleEndian, ofLittleEndian_littleEndian, Nat.mod_eq_of_lt small,
    UInt32.ofNat_toNat] at taken

theorem reads_size {value : Nat} (h : value ≤ word.maxValue) :
    Reads (size word) (word.sizeField value) value :=
  reads_littleEndian (by rw [← word.maxValue_add_one]; omega)

theorem fromUTF8?_textBytes (text : String) :
    String.fromUTF8? ⟨(textBytes text).toArray⟩ = some text := by
  have valid : text.toUTF8.IsValidUTF8 := text.isValidUTF8
  simp only [textBytes, Array.toArray_toList]
  exact dif_pos valid

/-- A text is read up to the first zero byte, which is the one that ends its field. -/
theorem reads_text {text : String} (h : NulFree text) : Reads Take.text (textField text) text := by
  intro rest
  have front : (textField text ++ rest).span (· != 0) = (textBytes text, 0 :: rest) := by
    have inside : ∀ byte ∈ textBytes text, (byte != 0) = true := by
      intro byte mem
      simp only [bne_iff_ne, ne_eq]
      rintro rfl
      exact h mem
    rw [List.span_eq_takeWhile_dropWhile, textField, List.append_assoc,
      List.takeWhile_append_of_pos inside, List.dropWhile_append_of_pos inside]
    simp
  simp only [Take.text, front, fromUTF8?_textBytes]
  rfl

/-! ## Sections -/

/-- A row of records is read one by one. -/
theorem reads_repeating {record : Take α} {bytes : α → List UInt8} {values : List α}
    (each : ∀ value ∈ values, Reads record (bytes value) value) :
    Reads (repeating record values.length) (values.flatMap bytes) values := by
  induction values with
  | nil => exact Reads.pure []
  | cons value values ih =>
    have first := each value List.mem_cons_self
    have others := ih fun value mem => each value (List.mem_cons_of_mem _ mem)
    exact first.bind (others.map (value :: ·))

/-- The count that `times` refuses is one that the bytes of so many records cannot have. -/
theorem reads_times {record : Take α} {bytes : α → List UInt8} {values : List α}
    (each : ∀ value ∈ values, Reads record (bytes value) value)
    (nonempty : ∀ value ∈ values, bytes value ≠ []) :
    Reads (times record values.length) (values.flatMap bytes) values := by
  intro rest
  have enough : values.length ≤ (values.flatMap bytes ++ rest).length := by
    have least : values.length ≤ (values.flatMap bytes).length := by
      clear each
      induction values with
      | nil => simp
      | cons value values ih =>
        have := List.length_pos_iff.mpr (nonempty value List.mem_cons_self)
        have := ih fun value mem => nonempty value (List.mem_cons_of_mem _ mem)
        simp only [List.length_cons, List.flatMap_cons, List.length_append]
        omega
    rw [List.length_append]
    omega
  rw [times, if_pos enough]
  exact reads_repeating each rest

theorem reads_records {record : Take α} {bytes : α → List UInt8} {values : List α}
    (count : values.length ≤ word.maxValue)
    (each : ∀ value ∈ values, Reads record (bytes value) value)
    (nonempty : ∀ value ∈ values, bytes value ≠ []) :
    Reads (records word record) (word.recordsField bytes values) values :=
  (reads_size count).bind (reads_times each nonempty)

theorem sizeField_ne_nil (value : Nat) : word.sizeField value ≠ [] := by
  cases word <;> simp [WordSize.sizeField, WordSize.bytes, littleEndian]

theorem recordsField_ne_nil (bytes : α → List UInt8) (values : List α) :
    word.recordsField bytes values ≠ [] := by
  simp [WordSize.recordsField, sizeField_ne_nil]

theorem reads_sizes {values : List Nat} (count : values.length ≤ word.maxValue)
    (each : ∀ value ∈ values, value ≤ word.maxValue) :
    Reads (records word (size word)) (word.recordsField word.sizeField values) values :=
  reads_records count (fun value mem => reads_size (each value mem))
    fun value _ => sizeField_ne_nil value

/-! ## Records -/

/-- The first byte of an operand tells its kind, and the kind tells which fields follow. -/
theorem reads_operand {record : OperandRecord} (h : record.Fits word) :
    Reads (operand word) (record.toBytes word) record := by
  refine (reads_tag record.kind.toByte (OperandKind.ofByte?_toByte record.kind)).bind ?_
  cases record with
  | constant index => exact (reads_size h).map OperandRecord.constant
  | localVariable block inst =>
    exact (reads_size h.1).bind ((reads_size h.2).map (OperandRecord.localVariable block))
  | type index => exact (reads_size h).map OperandRecord.type
  | function index => exact (reads_size h).map OperandRecord.function
  | block index => exact (reads_size h).map OperandRecord.block
  | arg number => exact (reads_size h).map OperandRecord.arg
  | global index => exact (reads_size h).map OperandRecord.global
  | predicate comparison =>
    exact (reads_tag _ (IntPredicate.ofByte?_toByte comparison)).map OperandRecord.predicate
  | unimplemented text => exact (reads_text h).map OperandRecord.unimplemented

theorem operand_toBytes_ne_nil (record : OperandRecord) : record.toBytes word ≠ [] :=
  List.cons_ne_nil _ _

/-- The type, the opcode, the number of operands, and the operands themselves. -/
theorem reads_inst {record : InstRecord} (h : record.Fits word) :
    Reads (inst word) (record.toBytes word) record := by
  have count : (UInt32.ofNat record.operands.length).toNat = record.operands.length := by
    simpa using Nat.mod_eq_of_lt h.count
  have operands : Reads (times (operand word) (UInt32.ofNat record.operands.length).toNat)
      (record.operands.flatMap (·.toBytes word)) record.operands := by
    rw [count]
    exact reads_times (fun operand mem => reads_operand (h.operands operand mem))
      fun operand _ => operand_toBytes_ne_nil operand
  simp only [InstRecord.toBytes, List.append_assoc]
  exact (reads_size h.type).bind <| (reads_tag _ (Opcode.ofByte?_toByte record.opcode)).bind <|
    (reads_word _).bind <| operands.map (InstRecord.mk record.type record.opcode)

theorem inst_toBytes_ne_nil (record : InstRecord) : record.toBytes word ≠ [] := by
  simp [InstRecord.toBytes]

/-- A name, a type, and the blocks, each of them a count and its instructions. -/
theorem reads_function {record : FunctionRecord} (h : record.Fits word) :
    Reads (function word) (record.toBytes word) record := by
  have blocks : Reads (records word (records word (inst word)))
      (word.recordsField (word.recordsField (·.toBytes word)) record.blocks) record.blocks := by
    refine reads_records h.count (fun block mem => ?_) fun block _ => recordsField_ne_nil _ block
    exact reads_records (h.counts block mem)
      (fun inst here => reads_inst (h.insts block mem inst here))
      fun inst _ => inst_toBytes_ne_nil inst
  simp only [FunctionRecord.toBytes, List.append_assoc]
  exact (reads_text h.name).bind <| (reads_size h.type).bind <|
    blocks.map (FunctionRecord.mk record.name record.type)

theorem reads_constant {record : ConstantRecord} (h : record.Fits word) :
    Reads (constant word) (record.toBytes word) record := by
  simp only [ConstantRecord.toBytes, List.append_assoc]
  exact (reads_size h.type).bind <| (reads_size h.count).bind <|
    (reads_bytes record.payload).map (ConstantRecord.mk record.type)

theorem reads_global {record : GlobalRecord} (h : record.Fits) :
    Reads global record.toBytes record :=
  (reads_flag record.threadLocal).bind ((reads_text h).map (GlobalRecord.mk record.threadLocal))

/-- The kind of a type is one byte, and it tells which fields follow. -/
theorem reads_type {record : TypeRecord} (h : record.Fits word) :
    Reads (type word) (record.toBytes word) record := by
  refine (reads_tag record.kind.toByte (TypeKind.ofByte?_toByte record.kind)).bind ?_
  cases record with
  | void => exact Reads.pure _
  | integer bits => exact (reads_word bits).map TypeRecord.integer
  | pointer => exact Reads.pure _
  | function params ret vararg =>
    obtain ⟨count, paramsFit, retFits⟩ := h
    simp only [List.append_assoc]
    exact (reads_sizes count paramsFit).bind <|
      (reads_size retFits).bind <| (reads_flag vararg).map (TypeRecord.function params ret)
  | struct fields bitOffsets =>
    obtain ⟨count, fieldsFit, paired, offsetsFit⟩ := h
    have offsets := reads_times (fun offset mem => reads_size (offsetsFit offset mem))
      fun offset _ => (sizeField_ne_nil offset : word.sizeField offset ≠ [])
    rw [paired] at offsets
    exact (reads_sizes count fieldsFit).bind (offsets.map (TypeRecord.struct fields))
  | unimplemented text => exact (reads_text h).map TypeRecord.unimplemented

theorem reads_header (record : Header) : Reads header record.toBytes record :=
  (reads_word record.magic).bind ((reads_word record.version).map (Header.mk record.magic))

/-- The header, the functions, and the three sections. -/
theorem reads_stream {record : Stream} (h : record.Fits word) :
    Reads (stream word) (record.toBytes word) record := by
  have functions := reads_records h.functionCount
    (fun function mem => reads_function (h.functions function mem)) fun function _ => by
      simp [FunctionRecord.toBytes, sizeField_ne_nil]
  have constants := reads_records h.constantCount
    (fun constant mem => reads_constant (h.constants constant mem)) fun constant _ => by
      simp [ConstantRecord.toBytes, sizeField_ne_nil]
  have globals : Reads (records word global) (word.recordsField (·.toBytes) record.globals)
      record.globals := reads_records h.globalCount
    (fun global mem => reads_global (h.globals global mem)) fun global _ => by
      simp [GlobalRecord.toBytes, flagField]
  have types := reads_records h.typeCount
    (fun type mem => reads_type (h.types type mem)) fun type _ => List.cons_ne_nil _ _
  simp only [Stream.toBytes, List.append_assoc]
  exact (reads_header record.header).bind <| functions.bind <| constants.bind <| globals.bind <|
    types.map (Stream.mk record.header record.functions record.constants record.globals)

end Take

/-- **A stream that fits its fields reads back**, and its bytes are used up. -/
theorem Stream.read?_toBytes {word : WordSize} {stream : Stream} (h : stream.Fits word) :
    Stream.read? word (stream.toBytes word) = some stream := by
  have taken := Take.reads_stream h []
  rw [List.append_nil] at taken
  rw [Stream.read?, taken]

end IrStream
