import IrStream.Program.Handle
import IrStream.Wire.Opcode
import IrStream.Wire.Predicate

/-!
# Instructions

An instruction is a kind, a result type and a list of operands.  The kind says what the operands
mean by their position:

* `load` `[pointer]`, `store` `[value, pointer]`, `ret` `[]` or `[value]`,
  `insertValue` `[aggregate, value]`, `alloca` `[count]`, operators and comparisons `[left, right]`;
* `call` `[arguments …, callee]`;
* `br` `[target]` or `[condition, false target, true target]`;
* `getElementPtr` `[base, indices …]`.

Nothing forces an instruction to have the operands of its kind.
-/

set_option autoImplicit false

namespace IrStream

/-- Something an instruction uses.  Globals and functions are reached through the constants that
hold their addresses. -/
inductive Operand where
  | const (id : ConstId)
  | arg (id : ArgId)
  /-- Result of another instruction. -/
  | inst (id : InstId)
  | block (id : BlockId)
  /-- A value that programs have no model of, kept as text. -/
  | text (text : String)
  deriving DecidableEq

/-! ## Operators and comparisons -/

/-- Two-operand arithmetic and bitwise operators. -/
inductive BinaryOp where
  | add
  | sub
  | mul
  | or
  | and
  | xor
  | shl
  | ashr
  | lshr
  | sdiv
  | srem
  | udiv
  | urem
  | fadd
  | fsub
  | fmul
  | fdiv
  | frem
  deriving DecidableEq

namespace BinaryOp

def all : List BinaryOp :=
  [add, sub, mul, or, and, xor, shl, ashr, lshr, sdiv, srem, udiv, urem, fadd, fsub, fmul, fdiv,
    frem]

/-- The opcode of its records. -/
def opcode : BinaryOp → Opcode
  | add => .add
  | sub => .sub
  | mul => .mul
  | or => .or
  | and => .and
  | xor => .xor
  | shl => .shl
  | ashr => .ashr
  | lshr => .lshr
  | sdiv => .sdiv
  | srem => .srem
  | udiv => .udiv
  | urem => .urem
  | fadd => .fadd
  | fsub => .fsub
  | fmul => .fmul
  | fdiv => .fdiv
  | frem => .frem

/-- Operators are called what their opcodes are called. -/
def name (op : BinaryOp) : String :=
  op.opcode.name

/-- The operator of that name, if there is one. -/
def ofName? (text : String) : Option BinaryOp :=
  all.find? (·.name == text)

end BinaryOp

/-- How two floating-point numbers are compared: `o…` holds only of numbers, `u…` also when one of
the two is none. -/
inductive FloatPredicate where
  | never
  | oeq
  | ogt
  | oge
  | olt
  | ole
  | one
  | ord
  | uno
  | ueq
  | ugt
  | uge
  | ult
  | ule
  | une
  | always
  deriving DecidableEq

namespace FloatPredicate

def all : List FloatPredicate :=
  [never, oeq, ogt, oge, olt, ole, one, ord, uno, ueq, ugt, uge, ult, ule, une, always]

def name : FloatPredicate → String
  | never => "false"
  | oeq => "oeq"
  | ogt => "ogt"
  | oge => "oge"
  | olt => "olt"
  | ole => "ole"
  | one => "one"
  | ord => "ord"
  | uno => "uno"
  | ueq => "ueq"
  | ugt => "ugt"
  | uge => "uge"
  | ult => "ult"
  | ule => "ule"
  | une => "une"
  | always => "true"

/-- The predicate of that name, if there is one. -/
def ofName? (text : String) : Option FloatPredicate :=
  all.find? (·.name == text)

end FloatPredicate

/-- The predicate of a comparison instruction. -/
inductive Comparison where
  | int (predicate : IntPredicate)
  | float (predicate : FloatPredicate)
  deriving DecidableEq

namespace Comparison

def name : Comparison → String
  | int predicate => predicate.name
  | float predicate => predicate.name

/-- The comparison of that name, if there is one.  Four names stand for both an unsigned and an
unordered comparison; they mean the unsigned one. -/
def ofName? (text : String) : Option Comparison :=
  match IntPredicate.ofName? text with
  | some predicate => some (int predicate)
  | none => (FloatPredicate.ofName? text).map float

/-- The predicate that stands for a comparison in the stream, which has none for floating-point
comparisons. -/
def wire? : Comparison → Option IntPredicate
  | int predicate => some predicate
  | float _ => none

end Comparison

/-! ## Kinds -/

/-- What an instruction does. -/
inductive InstKind where
  | load
  | store
  | ret
  | insertValue
  | alloca (allocated : TypeId)
  | call
  | br
  | getElementPtr (source : TypeId)
  | binary (op : BinaryOp)
  | compare (comparison : Comparison)
  /-- A debug or pseudo instruction; it never gets into the stream. -/
  | debug (name : String)
  /-- An instruction that programs have no model of, by its mnemonic. -/
  | other (name : String)
  deriving DecidableEq

namespace InstKind

def isDebug : InstKind → Bool
  | debug _ => true
  | _ => false

def mnemonic : InstKind → String
  | load => "load"
  | store => "store"
  | ret => "ret"
  | insertValue => "insertvalue"
  | alloca _ => "alloca"
  | call => "call"
  | br => "br"
  | getElementPtr _ => "getelementptr"
  | binary op => op.name
  | compare _ => "icmp"
  | debug name => name
  | other name => name

/-- The kind of a mnemonic.  Names that begin with `dbg.` or `pseudo.` are debug instructions, and
any name is the mnemonic of some kind.  Kinds that need more than a mnemonic are not among the
results. -/
def ofMnemonic (name : String) : InstKind :=
  match name with
  | "load" => load
  | "store" => store
  | "ret" => ret
  | "insertvalue" => insertValue
  | "call" => call
  | "br" => br
  | name =>
    if "dbg.".toList.isPrefixOf name.toList || "pseudo.".toList.isPrefixOf name.toList then
      debug name
    else
      match BinaryOp.ofName? name with
      | some op => binary op
      | none => other name

end InstKind

/-! ## Instructions -/

/-- An instruction. -/
structure Inst where
  kind : InstKind
  /-- Result type; void when there is no result. -/
  type : TypeId
  operands : List Operand
  name : Option String
  /-- The block it belongs to. -/
  block : BlockId
  deriving DecidableEq

namespace Inst

/-- Condition, true target and false target of a conditional branch. -/
def conditional? (inst : Inst) : Option (Operand × Operand × Operand) :=
  match inst.kind, inst.operands with
  | .br, [condition, ifFalse, ifTrue] => some (condition, ifTrue, ifFalse)
  | _, _ => none

/-- Whether this is a branch with a condition. -/
def isConditionalBranch (inst : Inst) : Bool :=
  inst.conditional?.isSome

/-- Condition of a conditional branch. -/
def condition? (inst : Inst) : Option Operand :=
  inst.conditional?.map (·.1)

/-- Where a branch may go.  Of a conditional branch the true target comes first; any other branch
goes to its first operand. -/
def successors (inst : Inst) : List Operand :=
  match inst.conditional? with
  | some (_, ifTrue, ifFalse) => [ifTrue, ifFalse]
  | none =>
    match inst.kind with
    | .br => inst.operands.take 1
    | _ => []

/-- Callee of a call, its last operand. -/
def callee? (inst : Inst) : Option Operand :=
  match inst.kind with
  | .call => inst.operands.getLast?
  | _ => none

end Inst

end IrStream
