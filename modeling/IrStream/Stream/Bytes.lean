import IrStream.Stream.Record

/-!
# The bytes of a stream

`Stream.toBytes` writes the records of a stream one behind the other:

* header: magic number and version;
* functions: a count, and for each the name, the position of the type, the count of blocks, and
  for each block the count of its instructions and the instructions;
* instruction: the position of the result type, the opcode, the count of operands in four bytes,
  and for each operand its tag and payload;
* constants: a count, and for each the position of the type, the count of bytes and the bytes;
* globals: a count, and for each whether it is thread-local, and the name;
* types: a count, and for each its tag and payload.

The bytes say all that the records say only if every number fits its field and no text holds a
zero byte.
-/

set_option autoImplicit false

namespace IrStream

/-- A count and that many records. -/
def WordSize.recordsField {α : Type} (word : WordSize) (record : α → List UInt8)
    (records : List α) : List UInt8 :=
  word.sizeField records.length ++ records.flatMap record

namespace OperandRecord

/-- What follows the tag of an operand. -/
def payload (word : WordSize) : OperandRecord → List UInt8
  | constant index => word.sizeField index
  | localVariable blockIndex instIndex => word.sizeField blockIndex ++ word.sizeField instIndex
  | type index => word.sizeField index
  | function index => word.sizeField index
  | block index => word.sizeField index
  | arg number => word.sizeField number
  | global index => word.sizeField index
  | predicate comparison => [comparison.toByte]
  | unimplemented text => textField text

def toBytes (word : WordSize) (operand : OperandRecord) : List UInt8 :=
  operand.kind.toByte :: operand.payload word

end OperandRecord

def InstRecord.toBytes (word : WordSize) (inst : InstRecord) : List UInt8 :=
  word.sizeField inst.type ++ [inst.opcode.toByte]
    ++ wordField (UInt32.ofNat inst.operands.length)
    ++ inst.operands.flatMap (·.toBytes word)

def FunctionRecord.toBytes (word : WordSize) (function : FunctionRecord) : List UInt8 :=
  textField function.name ++ word.sizeField function.type
    ++ word.recordsField (word.recordsField (·.toBytes word)) function.blocks

def ConstantRecord.toBytes (word : WordSize) (constant : ConstantRecord) : List UInt8 :=
  word.sizeField constant.type ++ word.sizeField constant.payload.length ++ constant.payload

def GlobalRecord.toBytes (global : GlobalRecord) : List UInt8 :=
  flagField global.threadLocal ++ textField global.name

namespace TypeRecord

/-- What follows the tag of a type. -/
def payload (word : WordSize) : TypeRecord → List UInt8
  | void => []
  | integer bits => wordField bits
  | pointer => []
  | function params ret vararg =>
    word.recordsField word.sizeField params ++ word.sizeField ret ++ flagField vararg
  | struct fields bitOffsets =>
    word.recordsField word.sizeField fields ++ bitOffsets.flatMap word.sizeField
  | unimplemented text => textField text

def toBytes (word : WordSize) (type : TypeRecord) : List UInt8 :=
  type.kind.toByte :: type.payload word

end TypeRecord

/-- The bytes of a stream whose size fields are as wide as `word` says. -/
def Stream.toBytes (word : WordSize) (stream : Stream) : List UInt8 :=
  stream.header.toBytes
    ++ word.recordsField (·.toBytes word) stream.functions
    ++ word.recordsField (·.toBytes word) stream.constants
    ++ word.recordsField (·.toBytes) stream.globals
    ++ word.recordsField (·.toBytes word) stream.types

end IrStream
