import IrStream.Document.Reading
import IrStream.Document.Scope

/-!
# Loading documents

A document is loaded in an order that lets everything refer to everything else:

1. all structs are declared, then they get their bodies;
2. globals and functions are added, the latter with their arguments;
3. globals are initialized;
4. each function gets its blocks, then its instructions without operands, then the operands.

`Document.toProgram` does that, `Program.ofText` reads the document first.
-/

set_option autoImplicit false

namespace IrStream

namespace Loader

/-! ## Structs, globals and functions -/

/-- Declare a struct, without its body. -/
def declareStruct (entry : String × Option StructEntry) :
    Loader (TypeId × Option StructEntry) := do
  return (← withTypes (·.declareStruct entry.1), entry.2)

/-- Give a declared struct its body, if it has one. -/
def defineStruct : TypeId × Option StructEntry → Loader Unit
  | (_, none) => return
  | (id, some body) => do
    let fields ← typesOf body.fields
    update fun program => do
      let types ← program.types.setStructBody id fields body.packed
      return ((), { program with types })

/-- Add a global, without its initializer. -/
def declareGlobal (entry : GlobalEntry) : Loader (GlobalId × GlobalEntry) := do
  let type ← typeOf entry.type
  return (← update (·.addGlobal entry.name type entry.threadLocal), entry)

/-- Initialize a global, if it has an initializer. -/
def initializeGlobal : GlobalId × GlobalEntry → Loader Unit
  | (id, entry) => do
    match entry.init with
    | none => return
    | some init =>
      let constant ← requireConstant init (← operandOf .empty init)
      set (← ((← get).setInitializer id constant : Except Dangling Program))

/-- Name an argument after its parameter, if that has a name. -/
def nameArg : ArgId × ParamEntry → Loader Unit
  | (id, param) => do
    if let some name := param.name then
      set (← ((← get).setArgName id name : Except Dangling Program))

/-- Add a function, without its blocks. -/
def declareFunction (entry : FunctionEntry) : Loader (FuncId × FunctionEntry) := do
  let params ← typesOf (entry.params.map (·.type))
  let ret ← match entry.ret with
    | some ret => typeOf ret
    | none => pure .void
  let type ← withTypes (·.func params ret entry.vararg)
  let id ← update (·.addFunction entry.name type)
  let function ← ((← get).function id : Except Dangling Function)
  (function.args.zip entry.params).forM nameArg
  return (id, entry)

/-! ## Function bodies -/

/-- Bring an argument into scope, if it has a name. -/
def scopeArg (scope : Scope) (id : ArgId) : Loader Scope := do
  match (← ((← get).arg id : Except Dangling Arg)).name with
  | some name => scope.defineValue name (.arg id)
  | none => return scope

/-- Add the blocks of a function and bring them into scope. -/
def addBlocks (func : FuncId) : (scope : Scope) → List BlockEntry →
    Loader (Scope × List (BlockId × BlockEntry))
  | scope, [] => return (scope, [])
  | scope, entry :: rest => do
    let (id, program) ← ((← get).addBlock func entry.label : Except Dangling (BlockId × Program))
    set program
    let scope ← match entry.label with
      | some label => scope.defineBlock label id
      | none => pure scope
    let (scope, blocks) ← addBlocks func scope rest
    return (scope, (id, entry) :: blocks)

/-- An attribute that an operation cannot do without. -/
def requireKey {α : Type} (op key : String) : Option α → Loader α
  | some value => return value
  | none => throw (.missingAttribute op key)

/-- What an instruction does. -/
def kindOf (entry : InstEntry) : Loader InstKind := do
  match entry.op with
  | "alloca" => return .alloca (← typeOf (← requireKey entry.op "alloc" entry.alloc))
  | "getelementptr" =>
    return .getElementPtr (← typeOf (← requireKey entry.op "source" entry.source))
  | "icmp" | "fcmp" =>
    let name ← requireKey entry.op "pred" entry.predicate
    match Comparison.ofName? name with
    | some comparison => return .compare comparison
    | none => throw (.unknownPredicate name)
  | op => return .ofMnemonic op

/-- Result type of an instruction that does not state one. -/
def defaultType : InstKind → TypeId
  | .alloca _ => .ptr
  | .getElementPtr _ => .ptr
  | .compare _ => .i1
  | _ => .void

/-- Add an instruction without operands and bring its result into scope. -/
def addInst (block : BlockId) (scope : Scope) (entry : InstEntry) : Loader (Scope × InstId) := do
  let kind ← kindOf entry
  let type ← match entry.type with
    | some type => typeOf type
    | none => pure (defaultType kind)
  let (id, program) ←
    ((← get).addInst block kind type [] entry.name : Except Dangling (InstId × Program))
  set program
  match entry.name with
  | some name => return (← scope.defineValue name (.inst id), id)
  | none => return (scope, id)

/-- Add instructions to a block, one behind the other. -/
def addInsts (block : BlockId) : (scope : Scope) → List InstEntry →
    Loader (Scope × List (InstId × InstEntry))
  | scope, [] => return (scope, [])
  | scope, entry :: rest => do
    let (scope, id) ← addInst block scope entry
    let (scope, insts) ← addInsts block scope rest
    return (scope, (id, entry) :: insts)

/-- Add the instructions of each block. -/
def fillBlocks : (scope : Scope) → List (BlockId × BlockEntry) →
    Loader (Scope × List (InstId × InstEntry))
  | scope, [] => return (scope, [])
  | scope, (block, entry) :: rest => do
    let (scope, insts) ← addInsts block scope entry.insts
    let (scope, more) ← fillBlocks scope rest
    return (scope, insts ++ more)

/-- Operands of an instruction: those it states, and of an `alloca` without any the count one. -/
def operandsOf (scope : Scope) (kind : InstKind) (entry : InstEntry) : Loader (List Operand) := do
  match ← entry.args.mapM (operandOf scope), kind with
  | [], .alloca _ => return [.const (← update (·.constInt .i32 1))]
  | operands, _ => return operands

/-- Type of an operator that states none: that of its first operand, if this has one. -/
def inferType (id : InstId) (kind : InstKind) (entry : InstEntry) (operands : List Operand) :
    Loader Unit := do
  match kind, entry.type, operands with
  | .binary _, none, first :: _ =>
    let type? ← ((← get).operandType? first : Except Dangling (Option TypeId))
    if let some type := type? then
      set (← ((← get).setInstType id type : Except Dangling Program))
  | _, _, _ => return

/-- Give an instruction its operands.  One with a name has to have a result then. -/
def finishInst (scope : Scope) : InstId × InstEntry → Loader Unit
  | (id, entry) => do
    let kind := (← ((← get).inst id : Except Dangling Inst)).kind
    let operands ← operandsOf scope kind entry
    inferType id kind entry operands
    set (← ((← get).setOperands id operands : Except Dangling Program))
    if let some name := entry.name then
      let type := (← ((← get).inst id : Except Dangling Inst)).type
      if ← ((← get).types.isVoid type : Except Dangling Bool) then
        throw (.namedVoidValue scope.function name)

/-- Give a function its blocks and instructions. -/
def defineFunction : FuncId × FunctionEntry → Loader Unit
  | (id, entry) => do
    let function ← ((← get).function id : Except Dangling Function)
    let scope ← function.args.foldlM scopeArg (.ofFunction entry.name)
    let (scope, blocks) ← addBlocks id scope entry.blocks
    let (scope, insts) ← fillBlocks scope blocks
    insts.forM (finishInst scope)

end Loader

open Loader

/-- Load everything that a document lists. -/
def Document.load (document : Document) : Loader Unit := do
  let structs ← document.structs.mapM declareStruct
  structs.forM defineStruct
  let globals ← document.globals.mapM declareGlobal
  let functions ← document.functions.mapM declareFunction
  globals.forM initializeGlobal
  functions.forM defineFunction

/-- The program that a document describes. -/
def Document.toProgram (document : Document) : Except ProgramError Program := do
  return (← document.load.run (.empty (document.layout.getD .standard))).2

/-- The program that the text of a document describes. -/
def Program.ofText (text : String) : Except ProgramError Program := do
  let document ← (Document.ofText text).mapError .malformedDocument
  document.toProgram

end IrStream
