/-!
# Opcodes

The opcode byte of an instruction record.  Bytes 0 to 29 are dense; 255 escapes an instruction
that the format has no record for, whose one operand is then its text.  Unconditional and
conditional branches are two opcodes, because the first carries no operands.
-/

set_option autoImplicit false

namespace IrStream

/-- What an instruction record does. -/
inductive Opcode where
  | nop
  | load
  | store
  | alloca
  | call
  | br
  | condBr
  | icmp
  | binaryOperator
  | ret
  | insertValue
  | ptrAdd
  | add
  | sub
  | mul
  | or
  | and
  | xor
  | shl
  | ashr
  | fadd
  | fdiv
  | fmul
  | frem
  | fsub
  | lshr
  | sdiv
  | srem
  | udiv
  | urem
  | unimplemented
  deriving DecidableEq

namespace Opcode

/-- Every opcode, in the order of their bytes. -/
def all : List Opcode :=
  [nop, load, store, alloca, call, br, condBr, icmp, binaryOperator, ret, insertValue, ptrAdd,
    add, sub, mul, or, and, xor, shl, ashr, fadd, fdiv, fmul, frem, fsub, lshr, sdiv, srem, udiv,
    urem, unimplemented]

def toByte : Opcode → UInt8
  | nop => 0
  | load => 1
  | store => 2
  | alloca => 3
  | call => 4
  | br => 5
  | condBr => 6
  | icmp => 7
  | binaryOperator => 8
  | ret => 9
  | insertValue => 10
  | ptrAdd => 11
  | add => 12
  | sub => 13
  | mul => 14
  | or => 15
  | and => 16
  | xor => 17
  | shl => 18
  | ashr => 19
  | fadd => 20
  | fdiv => 21
  | fmul => 22
  | frem => 23
  | fsub => 24
  | lshr => 25
  | sdiv => 26
  | srem => 27
  | udiv => 28
  | urem => 29
  | unimplemented => 255

/-- The opcode of a byte, if it has one. -/
def ofByte? (byte : UInt8) : Option Opcode :=
  all.find? (·.toByte == byte)

/-- Name used in listings. -/
def name : Opcode → String
  | nop => "nop"
  | load => "load"
  | store => "store"
  | alloca => "alloca"
  | call => "call"
  | br => "br"
  | condBr => "condbr"
  | icmp => "icmp"
  | binaryOperator => "binop"
  | ret => "ret"
  | insertValue => "insertvalue"
  | ptrAdd => "ptradd"
  | add => "add"
  | sub => "sub"
  | mul => "mul"
  | or => "or"
  | and => "and"
  | xor => "xor"
  | shl => "shl"
  | ashr => "ashr"
  | fadd => "fadd"
  | fdiv => "fdiv"
  | fmul => "fmul"
  | frem => "frem"
  | fsub => "fsub"
  | lshr => "lshr"
  | sdiv => "sdiv"
  | srem => "srem"
  | udiv => "udiv"
  | urem => "urem"
  | unimplemented => "unimplemented"

/-- Whether this is the opcode of one particular two-operand operator.  These are the bytes
from `add` to `urem`; the general `binaryOperator` is not among them. -/
def isBinaryOperator (opcode : Opcode) : Bool :=
  add.toByte ≤ opcode.toByte && opcode.toByte ≤ urem.toByte

theorem ofByte?_toByte (opcode : Opcode) : ofByte? opcode.toByte = some opcode := by
  cases opcode <;> rfl

end Opcode

end IrStream
