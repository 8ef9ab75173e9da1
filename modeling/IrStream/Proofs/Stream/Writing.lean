import IrStream.Proofs.Encode.Basic
import IrStream.Wire.Buffer

/-!
# Streams written field by field

`Stream.toBytes` says what the bytes of a stream are, all at once, and says it of every stream: a
number that is too wide for its field loses its high bytes there, and a text with a zero byte ends
too early.  A `Buffer` is the front of a stream that is still being written.  It grows by one field
at a time, and a push that would lose something fails instead.  This file proves that the two agree.

The bridge is `Stream.fields`, the fields of a stream in the order in which they are written, each
of them with what it is to hold but without its bytes.

* `Buffer.pushAll_eq` is about any fields: pushing them appends their bytes, or fails with the fault
  of the first field that has one.
* `Stream.flatMap_fields` is about the order: the bytes of the fields of a stream, one behind the
  other, are the bytes of the stream.
* `Stream.write_eq` puts the two together, for every stream and every buffer.
* `Program.write_of_encode` is what this means for encoding.  The stream of an encoded program is
  written onto the empty buffer without a fault, and what the buffer holds then is what encoding has
  answered.

The fields are not a third description of the format.  They are what the records are taken apart
into, so that one induction over a list stands for the calls of a writer.
-/

set_option autoImplicit false

namespace IrStream

/-! ## Fields

A `Field` is one push.  Only two kinds of them can fail, sizes and texts; the bytes of a constant
are pushed as they are, and a header is one push of eight bytes. -/

/-- What one push appends. -/
inductive Field where
  /-- The header, which has eight bytes. -/
  | header (header : Header)
  /-- One byte, such as a tag or a flag. -/
  | byte (byte : UInt8)
  /-- Four bytes, whatever the word size is. -/
  | word (value : UInt32)
  /-- A number in as many bytes as the word size says. -/
  | size (value : Nat)
  /-- A text and a zero byte behind it. -/
  | text (text : String)
  /-- Bytes as they are. -/
  | bytes (bytes : List UInt8)

/-- Push a field. -/
def Buffer.push (buffer : Buffer) : Field → Except FieldFault Buffer
  | .header header => return buffer.pushHeader header
  | .byte byte => return buffer.pushByte byte
  | .word value => return buffer.pushWord value
  | .size value => buffer.pushSize value
  | .text text => buffer.pushText text
  | .bytes bytes => return buffer.append bytes

namespace Field

/-- The bytes of a field, in a stream whose size fields have that width. -/
def toBytes (word : WordSize) : Field → List UInt8
  | .header record => record.toBytes
  | .byte value => [value]
  | .word value => wordField value
  | .size value => word.sizeField value
  | .text content => textField content
  | .bytes content => content

/-- Why a field cannot be pushed, if it cannot. -/
def fault? (word : WordSize) : Field → Option FieldFault
  | .size value => if value ≤ word.maxValue then none else some (.sizeOverflow value word.bytes)
  | .text content => if 0 ∈ textBytes content then some (.interiorNul content) else none
  | _ => none

variable {word : WordSize}

@[simp]
theorem toBytes_header (record : Header) : (header record).toBytes word = record.toBytes := rfl

@[simp]
theorem toBytes_byte (value : UInt8) : (byte value).toBytes word = [value] := rfl

@[simp]
theorem toBytes_word (value : UInt32) : (Field.word value).toBytes word = wordField value := rfl

@[simp]
theorem toBytes_size (value : Nat) : (size value).toBytes word = word.sizeField value := rfl

@[simp]
theorem toBytes_text (content : String) : (text content).toBytes word = textField content := rfl

@[simp]
theorem toBytes_bytes (content : List UInt8) : (bytes content).toBytes word = content := rfl

theorem fault?_size {value : Nat} (h : value ≤ word.maxValue) : (size value).fault? word = none :=
  if_pos h

theorem fault?_text {content : String} (h : NulFree content) :
    (text content).fault? word = none :=
  if_neg h

end Field

/-! ## Pushing

A push is decided by its field and the width of the buffer alone, never by what the buffer holds
already.  So what a row of pushes does can be said without running it. -/

namespace Buffer

@[simp]
theorem append_nil (buffer : Buffer) : buffer.append [] = buffer := by
  simp [append]

@[simp]
theorem append_append (buffer : Buffer) (front back : List UInt8) :
    (buffer.append front).append back = buffer.append (front ++ back) := by
  simp [append]

@[simp]
theorem word_append (buffer : Buffer) (bytes : List UInt8) :
    (buffer.append bytes).word = buffer.word :=
  rfl

/-- A push fails with the fault of its field, or appends the bytes of its field. -/
theorem push_eq (buffer : Buffer) (field : Field) :
    buffer.push field = match field.fault? buffer.word with
      | none => .ok (buffer.append (field.toBytes buffer.word))
      | some fault => .error fault := by
  cases field with
  | size value =>
    simp only [push, pushSize, WordSize.fit, Field.fault?]
    split <;> rfl
  | text text =>
    simp only [push, pushText, fitText, Field.fault?]
    split <;> rfl
  | header | byte | word | bytes => rfl

/-- Push fields one after the other, up to the first that fails. -/
def pushAll (buffer : Buffer) (fields : List Field) : Except FieldFault Buffer :=
  fields.foldlM push buffer

/-- **Pushing fields** appends their bytes, or fails with the fault of the first that has one. -/
theorem pushAll_eq (buffer : Buffer) (fields : List Field) :
    buffer.pushAll fields = match fields.findSome? (·.fault? buffer.word) with
      | none => .ok (buffer.append (fields.flatMap (·.toBytes buffer.word)))
      | some fault => .error fault := by
  induction fields generalizing buffer with
  | nil => exact congrArg Except.ok buffer.append_nil.symm
  | cons field fields ih =>
    have step : buffer.pushAll (field :: fields)
        = buffer.push field >>= fun after => after.pushAll fields := List.foldlM_cons
    rw [step, push_eq, List.findSome?_cons]
    cases field.fault? buffer.word with
    | some fault => rfl
    | none =>
      -- The width does not change, so the rest has the faults it has in the first buffer.
      have rest := ih (buffer.append (field.toBytes buffer.word))
      rw [word_append, append_append] at rest
      exact rest

end Buffer

/-! ## The fields of a record

Each record is taken apart in the order of its bytes.  The tag of an operand or a type is a byte,
and so is a flag. -/

/-- A count and the fields of that many records. -/
def recordFields {α : Type} (fields : α → List Field) (records : List α) : List Field :=
  .size records.length :: records.flatMap fields

def flagByte (flag : Bool) : Field :=
  .byte (if flag then 1 else 0)

namespace OperandRecord

/-- The fields behind the tag of an operand. -/
def payloadFields : OperandRecord → List Field
  | constant index => [.size index]
  | localVariable blockIndex instIndex => [.size blockIndex, .size instIndex]
  | type index => [.size index]
  | function index => [.size index]
  | block index => [.size index]
  | arg number => [.size number]
  | global index => [.size index]
  | predicate comparison => [.byte comparison.toByte]
  | unimplemented text => [.text text]

def fields (operand : OperandRecord) : List Field :=
  .byte operand.kind.toByte :: operand.payloadFields

end OperandRecord

/-- The operands are counted in four bytes. -/
def InstRecord.fields (inst : InstRecord) : List Field :=
  .size inst.type :: .byte inst.opcode.toByte :: .word (UInt32.ofNat inst.operands.length)
    :: inst.operands.flatMap (·.fields)

def FunctionRecord.fields (function : FunctionRecord) : List Field :=
  .text function.name :: .size function.type
    :: recordFields (recordFields (·.fields)) function.blocks

def ConstantRecord.fields (constant : ConstantRecord) : List Field :=
  [.size constant.type, .size constant.payload.length, .bytes constant.payload]

def GlobalRecord.fields (global : GlobalRecord) : List Field :=
  [flagByte global.threadLocal, .text global.name]

namespace TypeRecord

/-- The fields behind the tag of a type. -/
def payloadFields : TypeRecord → List Field
  | void => []
  | integer bits => [.word bits]
  | pointer => []
  | function params ret vararg =>
    recordFields (fun param => [.size param]) params ++ [.size ret, flagByte vararg]
  | struct fields bitOffsets =>
    recordFields (fun field => [.size field]) fields ++ bitOffsets.map .size
  | unimplemented text => [.text text]

def fields (type : TypeRecord) : List Field :=
  .byte type.kind.toByte :: type.payloadFields

end TypeRecord

/-- The fields of a stream, in the order in which they are written. -/
def Stream.fields (stream : Stream) : List Field :=
  .header stream.header :: recordFields (·.fields) stream.functions
    ++ recordFields (·.fields) stream.constants
    ++ recordFields (·.fields) stream.globals
    ++ recordFields (·.fields) stream.types

/-! ### Their bytes are the bytes of the record -/

variable {word : WordSize}

theorem flatMap_recordFields {α : Type} {fields : α → List Field} {bytes : α → List UInt8}
    (each : ∀ record, (fields record).flatMap (·.toBytes word) = bytes record)
    (records : List α) :
    (recordFields fields records).flatMap (·.toBytes word) = word.recordsField bytes records := by
  rw [recordFields, List.flatMap_cons, List.flatMap_assoc]
  simp only [each, Field.toBytes_size, WordSize.recordsField]

theorem flatMap_sizeFields (values : List Nat) :
    (recordFields (fun value => [.size value]) values).flatMap (·.toBytes word)
      = word.recordsField word.sizeField values :=
  flatMap_recordFields (fun _ => List.append_nil _) values

theorem OperandRecord.flatMap_fields (operand : OperandRecord) :
    operand.fields.flatMap (·.toBytes word) = operand.toBytes word := by
  cases operand <;> simp [fields, payloadFields, toBytes, payload]

theorem InstRecord.flatMap_fields (inst : InstRecord) :
    inst.fields.flatMap (·.toBytes word) = inst.toBytes word := by
  simp [fields, toBytes, List.flatMap_assoc, OperandRecord.flatMap_fields]

theorem FunctionRecord.flatMap_fields (function : FunctionRecord) :
    function.fields.flatMap (·.toBytes word) = function.toBytes word := by
  have blocks : (recordFields (recordFields (·.fields)) function.blocks).flatMap (·.toBytes word)
      = word.recordsField (word.recordsField (·.toBytes word)) function.blocks :=
    flatMap_recordFields (flatMap_recordFields InstRecord.flatMap_fields) function.blocks
  simp [fields, toBytes, blocks]

theorem ConstantRecord.flatMap_fields (constant : ConstantRecord) :
    constant.fields.flatMap (·.toBytes word) = constant.toBytes word := by
  simp [fields, toBytes]

theorem GlobalRecord.flatMap_fields (global : GlobalRecord) :
    global.fields.flatMap (·.toBytes word) = global.toBytes := by
  simp [fields, toBytes, flagByte, flagField]

theorem TypeRecord.flatMap_fields (type : TypeRecord) :
    type.fields.flatMap (·.toBytes word) = type.toBytes word := by
  cases type <;>
    simp [fields, payloadFields, toBytes, payload, flagByte, flagField, flatMap_sizeFields,
      List.flatMap_map]

/-- **The bytes of a stream** are the bytes of its fields, one behind the other. -/
theorem Stream.flatMap_fields (stream : Stream) :
    stream.fields.flatMap (·.toBytes word) = stream.toBytes word := by
  simp only [fields, toBytes, List.flatMap_append, List.flatMap_cons, List.cons_append,
    Field.toBytes_header, flatMap_recordFields FunctionRecord.flatMap_fields,
    flatMap_recordFields ConstantRecord.flatMap_fields,
    flatMap_recordFields GlobalRecord.flatMap_fields,
    flatMap_recordFields TypeRecord.flatMap_fields, List.append_assoc]

/-! ## Fields that fit

`Stream.Fits` is stated over records, as the reader needs it.  A stream that fits has no field with
a fault.  The converse does not hold, and need not: the count of the operands of an instruction is
never refused, nor is a struct with more offsets than fields. -/

/-- None of the fields has a fault. -/
def Faultless (word : WordSize) (fields : List Field) : Prop :=
  ∀ field ∈ fields, field.fault? word = none

theorem Faultless.records {α : Type} {fields : α → List Field} {records : List α}
    (count : records.length ≤ word.maxValue)
    (each : ∀ record ∈ records, Faultless word (fields record)) :
    Faultless word (recordFields fields records) := by
  intro field listed
  rcases List.mem_cons.mp listed with rfl | listed
  · exact Field.fault?_size count
  · obtain ⟨record, inRecords, there⟩ := List.mem_flatMap.mp listed
    exact each record inRecords field there

theorem Faultless.sizes {values : List Nat} (count : values.length ≤ word.maxValue)
    (each : ∀ value ∈ values, value ≤ word.maxValue) :
    Faultless word (recordFields (fun value => [.size value]) values) :=
  .records count fun value listed => by
    simpa [Faultless] using Field.fault?_size (each value listed)

theorem OperandRecord.Fits.faultless {operand : OperandRecord} (h : operand.Fits word) :
    Faultless word operand.fields := by
  cases operand with
  | predicate => simp [Faultless, fields, payloadFields, Field.fault?]
  | constant | localVariable | type | function | block | arg | global | unimplemented =>
    simpa [Faultless, fields, payloadFields, Field.fault?, OperandRecord.Fits, NulFree] using h

theorem InstRecord.Fits.faultless {inst : InstRecord} (h : inst.Fits word) :
    Faultless word inst.fields := by
  intro field listed
  simp only [fields, List.mem_cons, List.mem_flatMap] at listed
  rcases listed with rfl | rfl | rfl | ⟨operand, inInst, there⟩
  · exact Field.fault?_size h.type
  · rfl
  · rfl
  · exact (h.operands operand inInst).faultless field there

/-- No field of a function record has a fault if the record fits, those of its instructions
included. -/
theorem FunctionRecord.Fits.faultless {function : FunctionRecord} (h : function.Fits word) :
    Faultless word function.fields := by
  have blocks : Faultless word (recordFields (recordFields (·.fields)) function.blocks) :=
    .records h.count fun block inFunction =>
      .records (h.counts block inFunction) fun inst inBlock =>
        (h.insts block inFunction inst inBlock).faultless
  intro field listed
  simp only [fields, List.mem_cons] at listed
  rcases listed with rfl | rfl | listed
  · exact Field.fault?_text h.name
  · exact Field.fault?_size h.type
  · exact blocks field listed

theorem ConstantRecord.Fits.faultless {constant : ConstantRecord} (h : constant.Fits word) :
    Faultless word constant.fields := by
  simpa [Faultless, fields, Field.fault?] using And.intro h.type h.count

theorem GlobalRecord.Fits.faultless {global : GlobalRecord} (h : global.Fits) :
    Faultless word global.fields := by
  simpa [Faultless, fields, Field.fault?, flagByte, GlobalRecord.Fits, NulFree] using h

/-- No field of a type record has a fault if the numbers of the record fit. -/
theorem TypeRecord.Fits.faultless {type : TypeRecord} (h : type.Fits word) :
    Faultless word type.fields := by
  intro field listed
  rcases List.mem_cons.mp listed with rfl | listed
  · rfl
  cases type with
  | void | pointer => cases listed
  | integer bits =>
    cases List.mem_singleton.mp listed
    rfl
  | unimplemented text =>
    cases List.mem_singleton.mp listed
    exact Field.fault?_text h
  | function params ret vararg =>
    obtain ⟨count, params, ret⟩ := h
    simp only [payloadFields, List.mem_append, List.mem_cons, List.not_mem_nil, or_false] at listed
    rcases listed with listed | rfl | rfl
    · exact Faultless.sizes count params field listed
    · exact Field.fault?_size ret
    · rfl
  | struct fields offsets =>
    obtain ⟨count, fields, -, offsets⟩ := h
    rcases List.mem_append.mp listed with listed | listed
    · exact Faultless.sizes count fields field listed
    · obtain ⟨offset, inStruct, rfl⟩ := List.mem_map.mp listed
      exact Field.fault?_size (offsets offset inStruct)

theorem Stream.Fits.faultless {stream : Stream} (h : stream.Fits word) :
    Faultless word stream.fields := by
  intro field listed
  simp only [fields, List.mem_append, List.cons_append, List.mem_cons] at listed
  rcases listed with rfl | ((listed | listed) | listed) | listed
  · rfl
  · exact Faultless.records h.functionCount (fun _ mem => (h.functions _ mem).faultless) _ listed
  · exact Faultless.records h.constantCount (fun _ mem => (h.constants _ mem).faultless) _ listed
  · exact Faultless.records h.globalCount (fun _ mem => (h.globals _ mem).faultless) _ listed
  · exact Faultless.records h.typeCount (fun _ mem => (h.types _ mem).faultless) _ listed

/-! ## Writing a stream -/

/-- Write a stream behind what a buffer holds. -/
def Stream.write (stream : Stream) (buffer : Buffer) : Except FieldFault Buffer :=
  buffer.pushAll stream.fields

/-- **Writing a stream field by field** appends the bytes of the stream, or fails with the fault of
the first field that has one. -/
theorem Stream.write_eq (stream : Stream) (buffer : Buffer) :
    stream.write buffer = match stream.fields.findSome? (·.fault? buffer.word) with
      | none => .ok (buffer.append (stream.toBytes buffer.word))
      | some fault => .error fault := by
  rw [write, Buffer.pushAll_eq, stream.flatMap_fields]

theorem Stream.Fits.write_eq_ok {stream : Stream} {buffer : Buffer}
    (h : stream.Fits buffer.word) :
    stream.write buffer = .ok (buffer.append (stream.toBytes buffer.word)) := by
  have faultless : stream.fields.findSome? (·.fault? buffer.word) = none :=
    List.findSome?_eq_none_iff.mpr h.faultless
  rw [Stream.write_eq, faultless]

/-- **Encoding writes what it answers.**  The records of an encoded program are written onto an
empty buffer without a fault, and then the buffer holds the bytes of the program. -/
theorem Program.write_of_encode {program : Program} {module : EncodedModule}
    (h : program.encode word = .ok module) :
    ∃ stream, Stream.read? word module.bytes = some stream
      ∧ stream.write (.empty word) = .ok ⟨word, module.bytes⟩ := by
  obtain ⟨stream, state, encoded, bytes, -, -⟩ := encodeStream_of_encode h
  obtain ⟨-, -, fits⟩ := Program.encodeStream_spec (.initial program) encoded
  have written : stream.write (.empty word) = .ok ⟨word, stream.toBytes word⟩ :=
    Stream.Fits.write_eq_ok fits
  rw [bytes]
  exact ⟨stream, Stream.read?_toBytes fits, written⟩

end IrStream
