import IrStream.Wire.Header
import IrStream.Wire.Kind
import IrStream.Wire.Opcode
import IrStream.Wire.Predicate

/-!
# The records of a stream

A `Stream` is what the bytes of a stream say.  Behind the header come four sections, each of them
a count and that many records: functions with their blocks and instructions, constants, globals
and types.  Records refer to each other by position, a type for instance by its place in the types
section, which is the last one.

The counts are not part of the records; they are the lengths of the lists.
-/

set_option autoImplicit false

namespace IrStream

/-- An operand of an instruction record. -/
inductive OperandRecord where
  /-- Position in the constants section. -/
  | constant (index : Nat)
  /-- Block and instruction position within the function. -/
  | localVariable (block inst : Nat)
  /-- Position in the types section. -/
  | type (index : Nat)
  /-- Position among the functions. -/
  | function (index : Nat)
  /-- Block position within the function. -/
  | block (index : Nat)
  | arg (number : Nat)
  /-- Position in the globals section. -/
  | global (index : Nat)
  | predicate (predicate : IntPredicate)
  /-- The text of something that has no record. -/
  | unimplemented (text : String)
  deriving DecidableEq

/-- The tag of an operand record. -/
def OperandRecord.kind : OperandRecord → OperandKind
  | constant _ => .constant
  | localVariable .. => .localVariable
  | type _ => .type
  | function _ => .function
  | block _ => .block
  | arg _ => .arg
  | global _ => .global
  | predicate _ => .predicate
  | unimplemented _ => .unimplemented

/-- An instruction. -/
structure InstRecord where
  /-- Position of the result type. -/
  type : Nat
  opcode : Opcode
  operands : List OperandRecord
  deriving DecidableEq

/-- A function with its blocks. -/
structure FunctionRecord where
  name : String
  type : Nat
  blocks : List (List InstRecord)
  deriving DecidableEq

/-- A constant, by its bytes.  Only integers have any. -/
structure ConstantRecord where
  type : Nat
  payload : List UInt8
  deriving DecidableEq

/-- A global variable. -/
structure GlobalRecord where
  threadLocal : Bool
  name : String
  deriving DecidableEq

/-- A type. -/
inductive TypeRecord where
  | void
  | integer (bits : UInt32)
  | pointer
  | function (params : List Nat) (ret : Nat) (vararg : Bool)
  /-- Positions of the field types, and the bit offset of each field. -/
  | struct (fields : List Nat) (bitOffsets : List Nat)
  /-- The text of a type that has no record. -/
  | unimplemented (text : String)
  deriving DecidableEq

/-- The tag of a type record. -/
def TypeRecord.kind : TypeRecord → TypeKind
  | void => .void
  | integer _ => .integer
  | pointer => .pointer
  | function .. => .function
  | struct .. => .struct
  | unimplemented _ => .unimplemented

/-- A whole stream. -/
structure Stream where
  header : Header
  functions : List FunctionRecord
  constants : List ConstantRecord
  globals : List GlobalRecord
  types : List TypeRecord
  deriving DecidableEq

end IrStream
