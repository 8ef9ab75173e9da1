import IrStream.Encode.Offset
import IrStream.Encode.State
import IrStream.Program.Text
import IrStream.Stream.Record

/-!
# Encoding instructions

Loads, stores, returns, aggregate inserts and operators keep their operands.  Some instructions
are reshaped:

* `alloca` becomes the allocated type and the count, which has to be an integer constant;
* a call puts its callee before its arguments;
* a branch with one operand becomes one without operands, a branch with three puts the true target
  before the false one;
* `getelementptr` becomes its base and the byte offset that its indices add;
* a comparison puts its predicate between its operands.

Anything else becomes a record whose one operand is the text of the instruction.
-/

set_option autoImplicit false

namespace IrStream

/-- What is known inside the function that is being encoded. -/
structure FunctionScope where
  id : FuncId
  name : String
  blocks : Table BlockId
  /-- Locations of the instructions encoded so far. -/
  locations : Locations

namespace FunctionScope

/-- The scope at the beginning of a function. -/
def ofFunction (id : FuncId) (function : Function) : FunctionScope :=
  ⟨id, function.name, function.blockTable, .empty⟩

end FunctionScope

namespace Program

variable (program : Program) (word : WordSize)

/-! ## Operands -/

/-- An operand uses a value without a location. -/
def undefinedValue {α : Type} (scope : FunctionScope) (operand : Operand) : Encoding α := do
  let text ← (program.operandText operand : Except Dangling String)
  throw (.undefinedValue scope.name text)

/-- The operand that refers to a constant. -/
def encodeConstant (constant : Constant) : Encoding OperandRecord := do
  return .constant (← Encoding.sized word (← Encoding.registerConstant constant))

/-- The operand that refers to a type. -/
def encodeTypeOperand (type : TypeId) : Encoding OperandRecord := do
  return .type (← Encoding.sized word (← Encoding.registerType program type))

/-- The operand that shows the text of what has no record. -/
def encodeText (text : String) : Encoding OperandRecord := do
  return .unimplemented (← Encoding.unterminated text)

/-- The record of an operand. -/
def encodeOperand (scope : FunctionScope) (operand : Operand) : Encoding OperandRecord := do
  match operand with
  | .const id =>
    match ← (program.constant id : Except Dangling Constant) with
    | .global id =>
      return .global (← Encoding.sized word (← Encoding.registerGlobal program id))
    | .function id =>
      match program.functionTable.position? id with
      | some index => return .function (← Encoding.sized word index)
      | none =>
        let function ← (program.function id : Except Dangling Function)
        throw (.unknownFunction function.name)
    | constant => encodeConstant word constant
  | .arg id =>
    let arg ← (program.arg id : Except Dangling Arg)
    if arg.func ≠ scope.id then
      program.undefinedValue scope operand
    return .arg (← Encoding.sized word arg.number)
  | .inst id =>
    match scope.locations.find? id with
    | none => program.undefinedValue scope operand
    | some location =>
      let block ← Encoding.sized word location.block
      return .localVariable block (← Encoding.sized word location.inst)
  | .block id =>
    match scope.blocks.position? id with
    | some index => return .block (← Encoding.sized word index)
    | none =>
      let text ← (program.operandText operand : Except Dangling String)
      throw (.unknownBlock scope.name text)
  | .text text =>
    Encoding.log (.unimplementedOperand scope.name text)
    Encoding.count fun stats =>
      { stats with unimplementedOperands := stats.unimplementedOperands + 1 }
    encodeText text

/-! ## Recipes -/

/-- The record of an instruction with `count` operands, which `operands` encodes once the result
type has its position. -/
def encodeRecord (type : TypeId) (opcode : Opcode) (count : Nat)
    (operands : Encoding (List OperandRecord)) : Encoding InstRecord := do
  let type ← Encoding.sized word (← Encoding.registerType program type)
  if UInt32.size ≤ count then
    throw (.field (.sizeOverflow count 4))
  return ⟨type, opcode, ← operands⟩

/-- The record of an instruction that keeps the given operands in that order. -/
def encodeOperands (scope : FunctionScope) (type : TypeId) (opcode : Opcode)
    (operands : List Operand) : Encoding InstRecord :=
  program.encodeRecord word type opcode operands.length
    (operands.mapM (program.encodeOperand word scope))

/-- The record that shows an instruction as text. -/
def encodeUnimplemented (scope : FunctionScope) (id : InstId) (inst : Inst) :
    Encoding InstRecord := do
  let text ← (program.instText id : Except Dangling String)
  Encoding.log (.unimplementedInstruction scope.name text)
  Encoding.count fun stats =>
    { stats with unimplementedInstructions := stats.unimplementedInstructions + 1 }
  program.encodeRecord word inst.type .unimplemented 1 do
    return [← encodeText text]

/-- Whether an operand is an integer constant. -/
def isIntConstant : Operand → Except Dangling Bool
  | .const id => return (← program.constant id).intBits?.isSome
  | _ => return false

/-- The count of an `alloca`, if it is its one operand and an integer constant. -/
def allocaCount? : List Operand → Except Dangling (Option Operand)
  | [count] => return if ← program.isIntConstant count then some count else none
  | _ => return none

def encodeAlloca (scope : FunctionScope) (id : InstId) (inst : Inst) (allocated : TypeId) :
    Encoding InstRecord := do
  match ← (program.allocaCount? inst.operands : Except Dangling _) with
  | none =>
    let text ← (program.instText id : Except Dangling String)
    throw (.nonConstantAllocaCount scope.name text)
  | some count =>
    program.encodeRecord word inst.type .alloca 2 do
      let allocated ← program.encodeTypeOperand word allocated
      return [allocated, ← program.encodeOperand word scope count]

/-- The offset that the indices of a `getelementptr` add. -/
def encodeOffset (scope : FunctionScope) (id : InstId) (source : TypeId) (indices : List Operand) :
    Encoding (BitVec 64) := do
  match program.pointerOffset source indices with
  | .ok offset => return offset
  | .error (.dangling handle) => throw (.dangling handle)
  | .error .nonConstant =>
    let text ← (program.instText id : Except Dangling String)
    throw (.nonConstantOffset scope.name text)
  | .error (.invalid index type) =>
    let text ← (program.instText id : Except Dangling String)
    throw (.invalidOffsetIndex scope.name index (program.types.text type) text)

/-- The constant that holds a pointer offset. -/
def offsetConstant (offset : BitVec 64) : Constant :=
  .int .i64 (offset.setWidth 128)

def encodePtrAdd (scope : FunctionScope) (id : InstId) (inst : Inst) (source : TypeId)
    (base : Operand) (indices : List Operand) : Encoding InstRecord := do
  let offset ← program.encodeOffset scope id source indices
  program.encodeRecord word inst.type .ptrAdd 2 do
    let base ← program.encodeOperand word scope base
    return [base, ← encodeConstant word (offsetConstant offset)]

def encodeComparison (scope : FunctionScope) (id : InstId) (inst : Inst) (comparison : Comparison)
    (left right : Operand) : Encoding InstRecord := do
  match comparison.wire? with
  | none =>
    let text ← (program.instText id : Except Dangling String)
    throw (.unsupportedPredicate scope.name comparison.name text)
  | some predicate =>
    program.encodeRecord word inst.type .icmp 3 do
      let left ← program.encodeOperand word scope left
      return [left, .predicate predicate, ← program.encodeOperand word scope right]

/-- The record of an instruction. -/
def encodeInst (scope : FunctionScope) (id : InstId) : Encoding InstRecord := do
  let inst ← (program.inst id : Except Dangling Inst)
  match inst.kind, inst.operands with
  | .load, operands => program.encodeOperands word scope inst.type .load operands
  | .store, operands => program.encodeOperands word scope inst.type .store operands
  | .ret, operands => program.encodeOperands word scope inst.type .ret operands
  | .insertValue, operands => program.encodeOperands word scope inst.type .insertValue operands
  | .binary op, operands => program.encodeOperands word scope inst.type op.opcode operands
  | .alloca allocated, _ => program.encodeAlloca word scope id inst allocated
  | .br, [_] => program.encodeOperands word scope inst.type .br []
  | .br, [condition, ifFalse, ifTrue] =>
    program.encodeOperands word scope inst.type .condBr [condition, ifTrue, ifFalse]
  | .call, operands =>
    match operands.getLast? with
    | some callee =>
      program.encodeOperands word scope inst.type .call (callee :: operands.dropLast)
    | none => program.encodeUnimplemented word scope id inst
  | .getElementPtr source, base :: indices =>
    program.encodePtrAdd word scope id inst source base indices
  | .compare comparison, [left, right] =>
    program.encodeComparison word scope id inst comparison left right
  | _, _ => program.encodeUnimplemented word scope id inst

/-! ## Blocks -/

/-- Instructions of a block that get into the stream. -/
def emitted (block : Block) : Except Dangling (List InstId) :=
  block.insts.filterM fun id => return !(← program.inst id).kind.isDebug

/-- The records of instructions from `position` on of the block at position `block`, and the scope
that knows their locations.  An instruction gets its location when it is encoded, so no operand
of its own refers to it. -/
def encodeInsts (block : Nat) : (scope : FunctionScope) → (position : Nat) → List InstId →
    Encoding (List InstRecord × FunctionScope)
  | scope, _, [] => return ([], scope)
  | scope, position, id :: rest => do
    let record ← program.encodeInst word scope id
    let inst ← (program.inst id : Except Dangling Inst)
    let isVoid ← (program.types.isVoid inst.type : Except Dangling Bool)
    let scope := { scope with
      locations := scope.locations.record id (!isVoid) ⟨block, position⟩ }
    let (records, scope) ← encodeInsts block scope (position + 1) rest
    return (record :: records, scope)

/-- The records of blocks from `position` on.  The number of records of a block is promised in
front of them, and compared with what was emitted behind them. -/
def encodeBlocks : (scope : FunctionScope) → (position : Nat) → List BlockId →
    Encoding (List (List InstRecord))
  | _, _, [] => return []
  | scope, position, id :: rest => do
    let block ← (program.block id : Except Dangling Block)
    let insts ← (program.emitted block : Except Dangling _)
    Encoding.count fun stats => { stats with
      skippedInstructions := stats.skippedInstructions + (block.insts.length - insts.length) }
    let count ← Encoding.sized word insts.length
    let (records, scope) ← program.encodeInsts word position scope 0 insts
    if records.length ≠ count then
      throw (.instructionCountMismatch scope.name position count records.length)
    Encoding.count fun stats => { stats with instructions := stats.instructions + count }
    return records :: (← encodeBlocks scope (position + 1) rest)

end Program

end IrStream
