import IrStream.Program.Constant
import IrStream.Program.Inst
import IrStream.Types.Layout
import IrStream.Types.Text

/-!
# Programs

A `Program` owns every entity in an arena: types, constants, globals, functions, blocks,
instructions and arguments.  Functions and globals share one namespace, in which every name is
taken at most once.

Each operation answers the new program, with the handle of what it added.  An operation that fails
answers no program, so the old one still stands.
-/

set_option autoImplicit false

namespace IrStream

/-- A formal argument. -/
structure Arg where
  func : FuncId
  /-- Position in the parameter list. -/
  number : Nat
  type : TypeId
  name : Option String
  deriving DecidableEq

/-- A basic block. -/
structure Block where
  func : FuncId
  label : Option String
  /-- Instructions in execution order, debug instructions included. -/
  insts : List InstId
  deriving DecidableEq

/-- A function. -/
structure Function where
  name : String
  /-- Always a function type. -/
  type : TypeId
  args : List ArgId
  blocks : List BlockId
  deriving DecidableEq

/-- Whether a function has no body. -/
def Function.isDeclaration (function : Function) : Bool :=
  function.blocks.isEmpty

/-- A global variable. -/
structure Global where
  name : String
  /-- Type of the stored value. -/
  type : TypeId
  threadLocal : Bool
  init : Option ConstId
  deriving DecidableEq

/-- A whole program. -/
structure Program where
  layout : DataLayout
  types : Types
  constants : Constants
  globals : Array Global
  functions : Array Function
  blocks : Array Block
  insts : Array Inst
  args : Array Arg
  deriving DecidableEq

namespace Program

/-- The program without any entity, for a target. -/
def empty (layout : DataLayout) : Program where
  layout := layout
  types := .initial
  constants := .empty
  globals := #[]
  functions := #[]
  blocks := #[]
  insts := #[]
  args := #[]

/-! ## Look-up -/

variable (program : Program)

def constant (id : ConstId) : Except Dangling Constant :=
  program.constants.constant id

def global (id : GlobalId) : Except Dangling Global :=
  resolve program.globals id.index (.global id)

def function (id : FuncId) : Except Dangling Function :=
  resolve program.functions id.index (.function id)

def block (id : BlockId) : Except Dangling Block :=
  resolve program.blocks id.index (.block id)

def inst (id : InstId) : Except Dangling Inst :=
  resolve program.insts id.index (.inst id)

def arg (id : ArgId) : Except Dangling Arg :=
  resolve program.args id.index (.arg id)

/-- Handles of all functions, in program order. -/
def functionIds : List FuncId :=
  (List.range program.functions.size).map FuncId.mk

/-- The global of that name. -/
def findGlobal? (name : String) : Option GlobalId :=
  (program.globals.findIdx? (·.name == name)).map GlobalId.mk

/-- The function of that name. -/
def findFunction? (name : String) : Option FuncId :=
  (program.functions.findIdx? (·.name == name)).map FuncId.mk

/-- Whether a global or a function has that name. -/
def hasSymbol (name : String) : Bool :=
  (program.findGlobal? name).isSome || (program.findFunction? name).isSome

/-- The function that owns an instruction. -/
def ownerOfInst (id : InstId) : Except Dangling FuncId := do
  return (← program.block (← program.inst id).block).func

/-- Type of the value of an operand.  Blocks and texts have none. -/
def operandType? : Operand → Except Dangling (Option TypeId)
  | .const id => return some (← program.constant id).type
  | .arg id => return some (← program.arg id).type
  | .inst id => return some (← program.inst id).type
  | .block _ => return none
  | .text _ => return none

/-! ## Constants -/

def internConstant (constant : Constant) : ConstId × Program :=
  let (id, constants) := program.constants.intern constant
  (id, { program with constants })

/-- The integer constant of type `type` that is congruent to `value` modulo two to the width. -/
def constInt (type : TypeId) (value : Int) : Except ProgramError (ConstId × Program) := do
  match ← (program.types.shape type : Except Dangling TypeShape) with
  | .int bits =>
    if maxIntBits < bits.toNat then
      throw (.integerTooWide bits)
    return program.internConstant (.int type (truncate (BitVec.ofInt 128 value) bits.toNat))
  | _ => throw (.notAnIntegerType (program.types.text type))

/-- The constant that holds the address of a global. -/
def globalRef (id : GlobalId) : ConstId × Program :=
  program.internConstant (.global id)

/-- The constant that holds the address of a function. -/
def functionRef (id : FuncId) : ConstId × Program :=
  program.internConstant (.function id)

/-! ## Globals and functions -/

/-- Add a global without an initializer. -/
def addGlobal (name : String) (type : TypeId) (threadLocal : Bool) :
    Except ProgramError (GlobalId × Program) := do
  if program.hasSymbol name then
    throw (.duplicateName name)
  let global : Global := ⟨name, type, threadLocal, none⟩
  return (⟨program.globals.size⟩, { program with globals := program.globals.push global })

/-- Initialize a global. -/
def setInitializer (id : GlobalId) (init : ConstId) : Except Dangling Program := do
  let global ← program.global id
  return { program with
    globals := program.globals.setIfInBounds id.index { global with init := some init } }

/-- Add a function without blocks, with one argument for each parameter of its type. -/
def addFunction (name : String) (type : TypeId) : Except ProgramError (FuncId × Program) := do
  match ← (program.types.shape type : Except Dangling TypeShape) with
  | .func params _ _ =>
    if program.hasSymbol name then
      throw (.duplicateName name)
    let id : FuncId := ⟨program.functions.size⟩
    let args := params.mapIdx fun number type => ({ func := id, number, type, name := none } : Arg)
    let argIds := params.mapIdx fun number _ => ArgId.mk (program.args.size + number)
    let function : Function := ⟨name, type, argIds, []⟩
    return (id, { program with
      args := program.args ++ args.toArray
      functions := program.functions.push function })
  | _ => throw (.notAFunctionType (program.types.text type))

/-- Name an argument. -/
def setArgName (id : ArgId) (name : String) : Except Dangling Program := do
  let arg ← program.arg id
  return { program with
    args := program.args.setIfInBounds id.index { arg with name := some name } }

/-! ## Blocks and instructions -/

/-- Append an empty block to a function. -/
def addBlock (func : FuncId) (label : Option String) : Except Dangling (BlockId × Program) := do
  let function ← program.function func
  let id : BlockId := ⟨program.blocks.size⟩
  return (id, { program with
    blocks := program.blocks.push ⟨func, label, []⟩
    functions := program.functions.setIfInBounds func.index
      { function with blocks := function.blocks ++ [id] } })

/-- Append an instruction to a block. -/
def addInst (block : BlockId) (kind : InstKind) (type : TypeId) (operands : List Operand)
    (name : Option String) : Except Dangling (InstId × Program) := do
  let owner ← program.block block
  let id : InstId := ⟨program.insts.size⟩
  return (id, { program with
    insts := program.insts.push ⟨kind, type, operands, name, block⟩
    blocks := program.blocks.setIfInBounds block.index
      { owner with insts := owner.insts ++ [id] } })

/-- Replace the operands of an instruction. -/
def setOperands (id : InstId) (operands : List Operand) : Except Dangling Program := do
  let inst ← program.inst id
  return { program with insts := program.insts.setIfInBounds id.index { inst with operands } }

/-- Replace the result type of an instruction. -/
def setInstType (id : InstId) (type : TypeId) : Except Dangling Program := do
  let inst ← program.inst id
  return { program with insts := program.insts.setIfInBounds id.index { inst with type } }

end Program

end IrStream
