import IrStream.Encode.Basic
import IrStream.Proofs.Program.Lookup

/-!
# What a stream says about a program

`Stream.Describes` relates a stream to the program it stands for, given the tables with which the
positions in the stream are to be read.  It speaks of the program and of the records only, and not
of how the one is turned into the other:

* `Program.recipe?` is what the record of an instruction is made of: an opcode, and for each operand
  of the record what it is to say (`OperandSource`).  An instruction without a recipe cannot be
  encoded.
* `Program.Denotes` relates a source to the operand record that says it.  A position denotes an
  entity if it is the position that a table gives that entity.
* Instructions are named by their `Location` in the function; `Program.instAt?` is the instruction
  at a location, which counts only the instructions that get into the stream.

This is the specification of encoding.  It is not executable and does not try to be: it says which
streams are right, given the tables, and leaves open in which order the entries of the tables were
made.  How a number or a text is turned into bytes is none of its business either; that is what
`Stream/RoundTrip.lean` is about.

The definitions go down the program as the stream does — a stream describes a program, a function
record a function, an instruction record an instruction — and at the bottom there is a record of an
operand and what it denotes.  Two details deserve to be pointed out.

* A record has fields for which there is nothing in the program: the indices of a `getelementptr`
  become one offset, and a comparison gets its predicate between its operands.  That is why recipes
  have *sources* and not operands.
* Constants that are addresses of globals and functions do not denote an entry of the constants
  section.  They denote the global or the function.
-/

set_option autoImplicit false

namespace IrStream

/-! ## Where instructions are -/

namespace Location

/-- The order in which the instructions of a function follow each other in the stream. -/
def Before (first second : Location) : Prop :=
  first.block < second.block ∨ (first.block = second.block ∧ first.inst < second.inst)

end Location

namespace Program

variable (program : Program)

/-- Whether an instruction gets into the stream. -/
def isEmitted (id : InstId) : Bool :=
  match program.inst id with
  | .ok inst => !inst.kind.isDebug
  | .error _ => false

/-- The instructions of a block that get into the stream. -/
def blockBody (id : BlockId) : List InstId :=
  match program.block id with
  | .ok block => block.insts.filter program.isEmitted
  | .error _ => []

/-- The instructions of each block of a function that get into the stream. -/
def body (function : Function) : List (List InstId) :=
  function.blocks.map program.blockBody

/-- The instruction at a location. -/
def instAt? (function : Function) (location : Location) : Option InstId := do
  (← (program.body function)[location.block]?)[location.inst]?

/-- Whether an instruction has a result. -/
def hasResult (id : InstId) : Bool :=
  match program.inst id with
  | .ok inst =>
    match program.types.isVoid inst.type with
    | .ok isVoid => !isVoid
    | .error _ => false
  | .error _ => false

end Program

/-! ## Recipes

What a record is made of can be computed from the instruction, without any table. -/

/-- What an operand of a record is to say. -/
inductive OperandSource where
  /-- The value of an operand of the instruction. -/
  | operand (operand : Operand)
  /-- A type that the recipe writes, such as the one that is allocated. -/
  | type (id : TypeId)
  /-- A constant that the recipe makes, such as an offset. -/
  | constant (constant : Constant)
  /-- The predicate of a comparison. -/
  | predicate (predicate : IntPredicate)
  /-- The text of the instruction itself. -/
  | text (text : String)

/-- What the record of an instruction is made of. -/
structure Recipe where
  /-- What the instruction does. -/
  opcode : Opcode
  /-- The operands of the record, in order. -/
  sources : List OperandSource

/-- The recipe that keeps operands in the given order. -/
def Recipe.ofOperands (opcode : Opcode) (operands : List Operand) : Recipe :=
  ⟨opcode, operands.map .operand⟩

namespace Program

variable (program : Program)

/-- The recipe that shows an instruction as text. -/
def escape? (id : InstId) : Option Recipe := do
  let text ← (program.instText id).toOption
  return ⟨.unimplemented, [.text text]⟩

/-- The recipe of an instruction.  There is none for an allocation without a constant count, for
indices without an offset, and for a comparison that the format has no predicate for. -/
def recipe? (id : InstId) (inst : Inst) : Option Recipe :=
  match inst.kind, inst.operands with
  | .load, operands => some (.ofOperands .load operands)
  | .store, operands => some (.ofOperands .store operands)
  | .ret, operands => some (.ofOperands .ret operands)
  | .insertValue, operands => some (.ofOperands .insertValue operands)
  | .binary op, operands => some (.ofOperands op.opcode operands)
  | .alloca allocated, [count] =>
    match program.isIntConstant count with
    | .ok true => some ⟨.alloca, [.type allocated, .operand count]⟩
    | _ => none
  | .alloca _, _ => none
  | .br, [_] => some ⟨.br, []⟩
  | .br, [condition, ifFalse, ifTrue] => some (.ofOperands .condBr [condition, ifTrue, ifFalse])
  | .call, operands =>
    match operands.getLast? with
    | some callee => some (.ofOperands .call (callee :: operands.dropLast))
    | none => program.escape? id
  | .getElementPtr source, base :: indices =>
    match program.pointerOffset source indices with
    | .ok offset => some ⟨.ptrAdd, [.operand base, .constant (offsetConstant offset)]⟩
    | .error _ => none
  | .compare (.int predicate), [left, right] =>
    some ⟨.icmp, [.operand left, .predicate predicate, .operand right]⟩
  | .compare (.float _), [_, _] => none
  | _, _ => program.escape? id

end Program

/-! ## Operands -/

/-- Whether a constant is the address of a global or a function. -/
def Constant.IsAddress : Constant → Prop
  | global _ => True
  | function _ => True
  | _ => False

namespace Program

variable (program : Program) (tables : EncodeState)

/-- What operand records say at the location `here` of a function.  An address constant is the
global or the function itself; any other constant is an entry of the constants section.  The result
of an instruction is the location of that instruction, which has to be an earlier one. -/
inductive Denotes (func : FuncId) (function : Function) (here : Location) :
    OperandSource → OperandRecord → Prop
  /-- A constant that is no address stands at its index in the constants section. -/
  | constant {id : ConstId} {constant : Constant} {index : Nat}
      (found : program.constant id = .ok constant) (plain : ¬ constant.IsAddress)
      (position : tables.constants.position? constant = some index) :
      Denotes func function here (.operand (.const id)) (.constant index)
  /-- The address of a global is the index of the global, not of the constant. -/
  | global {id : ConstId} {global : GlobalId} {index : Nat}
      (found : program.constant id = .ok (.global global))
      (position : tables.globals.position? global = some index) :
      Denotes func function here (.operand (.const id)) (.global index)
  /-- The address of a function is the position of the function in the program. -/
  | function {id : ConstId} {callee : FuncId} {index : Nat}
      (found : program.constant id = .ok (.function callee))
      (position : program.functionTable.position? callee = some index) :
      Denotes func function here (.operand (.const id)) (.function index)
  /-- An argument has its number, and is one of the function that the record is in. -/
  | arg {id : ArgId} {arg : Arg} (found : program.arg id = .ok arg) (owner : arg.func = func) :
      Denotes func function here (.operand (.arg id)) (.arg arg.number)
  /-- The result of an earlier instruction is the location of that instruction, unless it is void.
  -/
  | inst {id : InstId} {there : Location} (located : program.instAt? function there = some id)
      (earlier : there.Before here) (hasResult : program.hasResult id) :
      Denotes func function here (.operand (.inst id)) (.localVariable there.block there.inst)
  /-- A block has its position in the function that the record is in. -/
  | block {id : BlockId} {index : Nat} (position : function.blockTable.position? id = some index) :
      Denotes func function here (.operand (.block id)) (.block index)
  /-- An opaque operand is its text. -/
  | text {text : String} : Denotes func function here (.operand (.text text)) (.unimplemented text)
  /-- A type that the recipe adds stands at its index in the types section. -/
  | type {id : TypeId} {index : Nat} (position : tables.types.position? id = some index) :
      Denotes func function here (.type id) (.type index)
  /-- A constant that the recipe adds, such as an offset, stands in the constants section as well.
  -/
  | entry {constant : Constant} {index : Nat}
      (position : tables.constants.position? constant = some index) :
      Denotes func function here (.constant constant) (.constant index)
  /-- A predicate is written as it is. -/
  | predicate {predicate : IntPredicate} :
      Denotes func function here (.predicate predicate) (.predicate predicate)
  /-- The text of a whole instruction takes the place of its operands. -/
  | snapshot {text : String} : Denotes func function here (.text text) (.unimplemented text)

/-! ## Records -/

/-- A record with result type `type` is made by a recipe. -/
structure Follows (func : FuncId) (function : Function) (here : Location) (type : TypeId)
    (recipe : Recipe) (record : InstRecord) : Prop where
  /-- The position of the result type. -/
  type : tables.types.position? type = some record.type
  /-- The opcode is the one of the recipe. -/
  opcode : record.opcode = recipe.opcode
  /-- An operand record for each source. -/
  operands :
    List.Forall₂ (program.Denotes tables func function here) recipe.sources record.operands

/-- The record of an instruction is made by its recipe. -/
def DescribesInst (func : FuncId) (function : Function) (here : Location) (id : InstId)
    (record : InstRecord) : Prop :=
  ∃ inst recipe, program.inst id = .ok inst ∧ program.recipe? id inst = some recipe
    ∧ program.Follows tables func function here inst.type recipe record

/-- The records of instructions that stand in a row in the block at position `block`. -/
def DescribesInsts (func : FuncId) (function : Function) (block position : Nat)
    (insts : List InstId) (records : List InstRecord) : Prop :=
  List.Forall₂
    (fun entry record =>
      program.DescribesInst tables func function ⟨block, entry.2⟩ entry.1 record)
    (insts.zipIdx position) records

/-- The record of a function: its name, the position of its type, and for each block a record for
each instruction that gets into the stream. -/
def DescribesFunction (func : FuncId) (record : FunctionRecord) : Prop :=
  ∃ function, program.function func = .ok function
    ∧ record.name = function.name
    ∧ tables.types.position? function.type = some record.type
    ∧ List.Forall₂
      (fun entry records => program.DescribesInsts tables func function entry.2 0 entry.1 records)
      (program.body function).zipIdx record.blocks

/-- The bytes that stand for a constant.  Only integers have any. -/
def payload : Constant → List UInt8
  | .int type bits =>
    match program.types.shape type with
    | .ok (.int width) => littleEndian (intBytes width) bits.toNat
    | _ => []
  | _ => []

/-- The record of a constant. -/
def DescribesConstant (constant : Constant) (record : ConstantRecord) : Prop :=
  tables.types.position? constant.type = some record.type
    ∧ record.payload = program.payload constant

/-- The record of a global. -/
def DescribesGlobal (id : GlobalId) (record : GlobalRecord) : Prop :=
  ∃ global, program.global id = .ok global ∧ record = ⟨global.threadLocal, global.name⟩

/-- The positions of some types. -/
def DescribesTypes (ids : List TypeId) (positions : List Nat) : Prop :=
  List.Forall₂ (fun id index => tables.types.position? id = some index) ids positions

/-- The record of a type.  Pointers have the width of the stream, or they have no record.  Offsets
are counted in bits. -/
inductive DescribesType (word : WordSize) (id : TypeId) : TypeRecord → Prop
  /-- Void has nothing to say. -/
  | void (found : program.types.shape id = .ok .void) : DescribesType word id .void
  /-- An integer type has its width. -/
  | int {bits : UInt32} (found : program.types.shape id = .ok (.int bits)) :
      DescribesType word id (.integer bits)
  /-- A pointer has nothing to say, because all pointers of the stream have the same width. -/
  | ptr {addrSpace : UInt32} (found : program.types.shape id = .ok (.ptr addrSpace))
      (width : (program.layout.pointerBytes addrSpace).toNat = word.bytes) :
      DescribesType word id .pointer
  /-- A function type has the indices of its parameters and of its result, and whether it is vararg.
  -/
  | func {params : List TypeId} {ret : TypeId} {vararg : Bool} {positions : List Nat} {index : Nat}
      (found : program.types.shape id = .ok (.func params ret vararg))
      (parameters : DescribesTypes tables params positions)
      (result : tables.types.position? ret = some index) :
      DescribesType word id (.function positions index vararg)
  /-- A struct with a layout has the indices of its fields and the offsets at which they begin. -/
  | struct {shape : StructShape} {layout : StructLayout} {positions : List Nat}
      (found : program.types.shape id = .ok (.struct shape))
      (laidOut : program.types.structLayout? program.layout id = .ok (some layout))
      (fields : DescribesTypes tables shape.fields positions) :
      DescribesType word id (.struct positions (layout.offsets.map (· * 8)))
  /-- A struct without a layout is shown as text. -/
  | bodiless {shape : StructShape} (found : program.types.shape id = .ok (.struct shape))
      (missing : program.types.structLayout? program.layout id = .ok none) :
      DescribesType word id (.unimplemented (program.types.text id))
  /-- An array is shown as text. -/
  | array {elem : TypeId} {length : UInt64}
      (found : program.types.shape id = .ok (.array elem length)) :
      DescribesType word id (.unimplemented (program.types.text id))
  /-- A floating-point type is shown as text. -/
  | float {kind : FloatKind} (found : program.types.shape id = .ok (.float kind)) :
      DescribesType word id (.unimplemented (program.types.text id))

end Program

/-! ## Streams -/

/-- A stream stands for a program: a record for each function, and a section for each table. -/
structure Stream.Describes (program : Program) (word : WordSize) (tables : EncodeState)
    (stream : Stream) : Prop where
  /-- The header is the one of this version of the format. -/
  header : stream.header = .current
  /-- Functions are in the order of the program. -/
  functions : List.Forall₂ (program.DescribesFunction tables) program.functionIds stream.functions
  /-- The other sections are in the orders of their tables. -/
  constants :
    List.Forall₂ (program.DescribesConstant tables) tables.constants.toList stream.constants
  /-- Each global has its name and whether it is thread-local. -/
  globals : List.Forall₂ program.DescribesGlobal tables.globals.toList stream.globals
  /-- Each type has a record, if only its text. -/
  types : List.Forall₂ (program.DescribesType tables word) tables.types.toList stream.types

/-! ## Records by location -/

/-- The record at a location of a function. -/
def FunctionRecord.instAt? (record : FunctionRecord) (location : Location) : Option InstRecord := do
  (← record.blocks[location.block]?)[location.inst]?

namespace Program

variable {program : Program} {tables : EncodeState} {func : FuncId} {function : Function}
  {record : FunctionRecord} {here : Location}

theorem DescribesFunction.blocks (h : program.DescribesFunction tables func record)
    (found : program.function func = .ok function) :
    List.Forall₂
      (fun entry records => program.DescribesInsts tables func function entry.2 0 entry.1 records)
      (program.body function).zipIdx record.blocks := by
  obtain ⟨_, again, -, -, blocks⟩ := h
  cases found.symm.trans again
  exact blocks

/-- The record at a location is the record of the instruction there. -/
theorem DescribesFunction.exists_id (h : program.DescribesFunction tables func record)
    (found : program.function func = .ok function) {inst : InstRecord}
    (located : record.instAt? here = some inst) :
    ∃ id, program.instAt? function here = some id
      ∧ program.DescribesInst tables func function here id inst := by
  simp only [FunctionRecord.instAt?, Option.bind_eq_bind, Option.bind_eq_some_iff] at located
  obtain ⟨records, block, atIndex⟩ := located
  obtain ⟨⟨insts, position⟩, listed, described⟩ := exists_left_of_forall₂ (h.blocks found) block
  obtain ⟨⟨id, index⟩, there, describes⟩ := exists_left_of_forall₂ described atIndex
  simp only [List.getElem?_zipIdx, Option.map_eq_some_iff, Prod.mk.injEq] at listed there
  obtain ⟨_, listed, rfl, rfl⟩ := listed
  obtain ⟨_, there, rfl, rfl⟩ := there
  refine ⟨_, ?_, by simpa using describes⟩
  simp [instAt?, listed, there]

/-- An instruction with a location has a record at that location, which describes it. -/
theorem DescribesFunction.exists_record (h : program.DescribesFunction tables func record)
    (found : program.function func = .ok function) {id : InstId}
    (located : program.instAt? function here = some id) :
    ∃ inst, record.instAt? here = some inst
      ∧ program.DescribesInst tables func function here id inst := by
  simp only [instAt?, Option.bind_eq_bind, Option.bind_eq_some_iff] at located
  obtain ⟨insts, block, atIndex⟩ := located
  have listed : (program.body function).zipIdx[here.block]? = some (insts, here.block) := by
    simp [List.getElem?_zipIdx, block]
  obtain ⟨records, there, described⟩ := exists_right_of_forall₂ (h.blocks found) listed
  have entry : insts.zipIdx[here.inst]? = some (id, here.inst) := by
    simp [List.getElem?_zipIdx, atIndex]
  obtain ⟨inst, here', describes⟩ := exists_right_of_forall₂ described entry
  exact ⟨inst, by simp [FunctionRecord.instAt?, there, here'], describes⟩

end Program

end IrStream
