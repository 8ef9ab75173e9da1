import IrStream.Proofs.Encode.Offset
import IrStream.Proofs.Encode.Scope
import IrStream.Proofs.Stream.RoundTrip

/-!
# Programs that have a stream

`Program.WellFormed` lists what a program has to meet to be encoded with a word size.  It speaks of
the program alone, and of no table:

* `Program.Emits` is an instruction that gets into the stream, and where.  `Inst.writtenOperands`
  are the operands that its record keeps, and `Inst.isEscaped` tells whether its record shows it as
  text instead.
* `Program.Available` is what an operand has to be where it stands: an argument or a block of the
  same function, the result of an earlier instruction of it, or a text that has a field.
* `Program.UsesGlobal`, `Program.UsesConstant` and `Program.UsesType` are the entities that the
  sections of the stream hold, each of them for a reason that can be read off the program.

The conditions are of three kinds.  Some are about one instruction, and ask for something that the
format needs: an allocation counts by an integer constant, the indices of a `getelementptr` lead to
something, a comparison compares integers.  Some are about numbers and texts: what is written into a
field has to fit it.  And some are about how many things there are, because a table of more entries
than a word can count has no section.

The last kind is where the definitions above are needed.  How long a table gets cannot be told by
adding up, since constants and types are shared; it is the number of *different* things that are
used.  `AtMost count P` says that there are no more than `count` things with the property, for
properties of which it is not decided here whether they hold.
-/

set_option autoImplicit false

namespace IrStream

namespace Inst

/-- The operands that the record of an instruction keeps. -/
def writtenOperands (inst : Inst) : List Operand :=
  match inst.kind, inst.operands with
  | .load, operands => operands
  | .store, operands => operands
  | .ret, operands => operands
  | .insertValue, operands => operands
  | .binary _, operands => operands
  | .call, operands => operands
  | .alloca _, [count] => [count]
  | .br, [condition, ifFalse, ifTrue] => [condition, ifFalse, ifTrue]
  | .getElementPtr _, base :: _ => [base]
  | .compare _, [left, right] => [left, right]
  | _, _ => []

/-- Whether the record of an instruction shows it as text, because it does not have the shape that
its kind asks for, or because programs have no model of its kind. -/
def isEscaped (inst : Inst) : Bool :=
  match inst.kind, inst.operands with
  | .load, _ => false
  | .store, _ => false
  | .ret, _ => false
  | .insertValue, _ => false
  | .binary _, _ => false
  | .alloca _, _ => false
  | .call, _ :: _ => false
  | .br, [_] => false
  | .br, [_, _, _] => false
  | .getElementPtr _, _ :: _ => false
  | .compare _, [_, _] => false
  | _, _ => true

end Inst

/-- There are at most that many things with a property. -/
def AtMost {α : Type} (count : Nat) (P : α → Prop) : Prop :=
  ∀ list : List α, list.Nodup → (∀ a ∈ list, P a) → list.length ≤ count

namespace Program

variable (program : Program)

/-! ## What gets into the stream -/

/-- An instruction gets into the stream at a location of a function. -/
structure Emits (func : FuncId) (function : Function) (here : Location) (id : InstId)
    (inst : Inst) : Prop where
  /-- The function is one of the program. -/
  found : program.function func = .ok function
  /-- The instruction is what the body of the function has at the location. -/
  located : program.instAt? function here = some id
  /-- The instruction is in its arena. -/
  known : program.inst id = .ok inst

/-- An operand can be written at a location of a function. -/
def Available (func : FuncId) (function : Function) (here : Location) : Operand → Prop
  | .const _ => True
  | .arg id => ∃ arg, program.arg id = .ok arg ∧ arg.func = func
  | .inst id => ∃ there, program.instAt? function there = some id ∧ there.Before here
      ∧ program.hasResult id = true
  | .block id => id ∈ function.blocks
  | .text text => NulFree text

/-- A global of which the address is written. -/
inductive UsesGlobal : GlobalId → Prop
  /-- Only an operand that is written counts.  A global that no emitted instruction names is left
  out of the stream, even if another one is initialized with its address. -/
  | operand {func : FuncId} {function : Function} {here : Location} {id : InstId} {inst : Inst}
      {address : ConstId} {global : GlobalId} (emits : program.Emits func function here id inst)
      (written : .const address ∈ inst.writtenOperands)
      (found : program.constant address = .ok (.global global)) : UsesGlobal global

/-- A constant that is written, is the offset of a `getelementptr`, or initializes a global. -/
inductive UsesConstant : Constant → Prop
  /-- An address is no constant of the stream: it becomes a position in the table of globals. -/
  | operand {func : FuncId} {function : Function} {here : Location} {id : InstId} {inst : Inst}
      {constId : ConstId} {constant : Constant} (emits : program.Emits func function here id inst)
      (written : .const constId ∈ inst.writtenOperands)
      (found : program.constant constId = .ok constant) (plain : ¬ constant.IsAddress) :
      UsesConstant constant
  /-- The indices of a `getelementptr` are not written, the constant they fold to is. -/
  | offset {func : FuncId} {function : Function} {here : Location} {id : InstId} {inst : Inst}
      {source : TypeId} {base : Operand} {indices : List Operand} {offset : BitVec 64}
      (emits : program.Emits func function here id inst)
      (kind : inst.kind = .getElementPtr source) (operands : inst.operands = base :: indices)
      (folded : program.pointerOffset source indices = .ok offset) :
      UsesConstant (offsetConstant offset)
  /-- The value that a global in the table begins with. -/
  | initializer {id : GlobalId} {global : Global} {init : ConstId} {constant : Constant}
      (used : UsesGlobal program id) (found : program.global id = .ok global)
      (initialized : global.init = some init) (value : program.constant init = .ok constant) :
      UsesConstant constant

/-- The type of a function, of an instruction, of a constant or of what an `alloca` allocates, and
whatever such a type contains. -/
inductive UsesType : TypeId → Prop
  /-- Every function of the program has a record with its type. -/
  | signature {func : FuncId} {function : Function} (found : program.function func = .ok function) :
      UsesType function.type
  /-- An instruction that gets into the stream has a record with its result type. -/
  | result {func : FuncId} {function : Function} {here : Location} {id : InstId} {inst : Inst}
      (emits : program.Emits func function here id inst) : UsesType inst.type
  /-- The record of an allocation has the type that is allocated for an operand. -/
  | allocated {func : FuncId} {function : Function} {here : Location} {id : InstId} {inst : Inst}
      {allocated : TypeId} (emits : program.Emits func function here id inst)
      (kind : inst.kind = .alloca allocated) : UsesType allocated
  /-- A constant in the table has a record with its type. -/
  | constant {constant : Constant} (used : UsesConstant program constant) : UsesType constant.type
  /-- With a type, everything that it contains directly. -/
  | part {outer : TypeId} {shape : TypeShape} {inner : TypeId} (used : UsesType outer)
      (found : program.types.shape outer = .ok shape) (listed : inner ∈ shape.children) :
      UsesType inner

/-- A type that the stream shows as text. -/
inductive ShownAsText : TypeId → Prop
  /-- Floating-point types have no record of their own. -/
  | float {id : TypeId} {kind : FloatKind} (found : program.types.shape id = .ok (.float kind)) :
      ShownAsText id
  /-- Array types have none either. -/
  | array {id elem : TypeId} {length : UInt64}
      (found : program.types.shape id = .ok (.array elem length)) : ShownAsText id
  /-- A struct without a layout, since it or a struct in it has no body. -/
  | bodiless {id : TypeId} {shape : StructShape}
      (found : program.types.shape id = .ok (.struct shape))
      (missing : program.types.structLayout? program.layout id = .ok none) : ShownAsText id

/-! ## Well-formed programs -/

/-- What a program has to meet to be encoded with a word size. -/
structure WellFormed (word : WordSize) : Prop where
  /-- An allocation has one operand, and it is an integer constant. -/
  count : ∀ {func function here id inst allocated}, program.Emits func function here id inst →
    inst.kind = .alloca allocated → ∃ count type bits, inst.operands = [.const count]
      ∧ program.constant count = .ok (.int type bits)
  /-- Indices address something. -/
  offset : ∀ {func function here id inst source base indices},
    program.Emits func function here id inst → inst.kind = .getElementPtr source →
    inst.operands = base :: indices →
      ∃ exact reached, Addresses program 0 source indices exact reached
  /-- A comparison of two operands compares integers. -/
  predicate : ∀ {func function here id inst comparison left right},
    program.Emits func function here id inst → inst.kind = .compare comparison →
    inst.operands = [left, right] → ∃ predicate, comparison = .int predicate
  /-- Operands are available where they are written. -/
  available : ∀ {func function here id inst}, program.Emits func function here id inst →
    ∀ operand ∈ inst.writtenOperands, program.Available func function here operand
  /-- The name of a function has a field, so it has no zero byte. -/
  functionName : ∀ {func function}, program.function func = .ok function → NulFree function.name
  /-- An instruction that is shown as text has a text without zero bytes. -/
  instText : ∀ {func function here id inst text}, program.Emits func function here id inst →
    inst.isEscaped = true → program.instText id = .ok text → NulFree text
  /-- The name of a global that is used has no zero byte. -/
  globalName : ∀ {id global}, program.UsesGlobal id → program.global id = .ok global →
    NulFree global.name
  /-- A type that is shown as text has a text without zero bytes. -/
  typeText : ∀ {id}, program.UsesType id → program.ShownAsText id → NulFree (program.types.text id)
  /-- Pointers are as wide as size fields. -/
  pointer : ∀ {id addrSpace}, program.UsesType id →
    program.types.shape id = .ok (.ptr addrSpace) →
    (program.layout.pointerBytes addrSpace).toNat = word.bytes
  /-- Field offsets, counted in bits, have a size field. -/
  bitOffset : ∀ {id layout}, program.UsesType id →
    program.types.structLayout? program.layout id = .ok (some layout) →
    ∀ offset ∈ layout.offsets, offset * 8 ≤ word.maxValue
  /-- The fields of a struct are counted in a size field. -/
  fieldCount : ∀ {id shape layout}, program.UsesType id →
    program.types.shape id = .ok (.struct shape) →
    program.types.structLayout? program.layout id = .ok (some layout) →
    shape.fields.length ≤ word.maxValue
  /-- The parameters of a function type are counted in a size field. -/
  paramCount : ∀ {id params ret vararg}, program.UsesType id →
    program.types.shape id = .ok (.func params ret vararg) → params.length ≤ word.maxValue
  /-- Operands are counted in four bytes. -/
  operandCount : ∀ {func function here id inst}, program.Emits func function here id inst →
    inst.writtenOperands.length < UInt32.size
  /-- The emitted instructions of a block are counted in a size field. -/
  instCount : ∀ {func function insts}, program.function func = .ok function →
    insts ∈ program.body function → insts.length ≤ word.maxValue
  /-- The blocks of a function are counted in a size field. -/
  blockCount : ∀ {func function}, program.function func = .ok function →
    function.blocks.length ≤ word.maxValue
  /-- The functions are counted in a size field. -/
  functionCount : program.functions.size ≤ word.maxValue
  /-- No more globals are used than a size field can count. -/
  globalCount : AtMost word.maxValue program.UsesGlobal
  /-- No more constants are used than a size field can count, offsets included. -/
  constantCount : AtMost word.maxValue program.UsesConstant
  /-- No more types are used than a size field can count. -/
  typeCount : AtMost word.maxValue program.UsesType

end Program

end IrStream
