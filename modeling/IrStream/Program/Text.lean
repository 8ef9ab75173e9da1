import IrStream.Program.Basic

/-!
# Programs as text

Constants, operands and instructions are written the way assembly listings write them, such as
`i32 7`, `ptr @g`, `label %entry` and `%x = add i32 %a, %b`.  The stream carries these texts where
it has no record for what they say, and messages quote them.

Values without a name are called after their place: an argument `%arg` and its number, an
instruction `%v` and its handle, a block `%bb` and its position in its function.
-/

set_option autoImplicit false

namespace IrStream

/-! ## Numbers -/

/-- A decimal integer. -/
def intText : Int → String
  | .ofNat magnitude => toString magnitude
  | .negSucc before => "-" ++ toString (before + 1)

/-- A digit of base sixteen, in upper case. -/
def upperHexDigit (value : Nat) : Char :=
  if value < 10 then Char.ofNat ('0'.toNat + value) else Char.ofNat ('A'.toNat + (value - 10))

/-- The low `count` hexadecimal digits of a number, highest first. -/
def upperHex : (count : Nat) → (value : Nat) → List Char
  | 0, _ => []
  | count + 1, value => upperHex count (value / 16) ++ [upperHexDigit (value % 16)]

/-- The bit pattern of a floating-point constant: sixteen digits behind `0x`. -/
def floatBitsText (bits : UInt64) : String :=
  "0x" ++ String.ofList (upperHex 16 bits.toNat)

namespace Program

variable (program : Program)

/-! ## Constants -/

/-- An integer constant of that many bits, without its type. -/
def intConstantText (width : Nat) (bits : BitVec 128) : String :=
  if width = 1 then
    if bits = 0 then "false" else "true"
  else
    intText (signExtend bits width)

/-- The brackets around the elements of an aggregate. -/
def aggregateText (isArray : Bool) (elems : List String) : String :=
  if isArray then "[" ++ commaSeparated elems ++ "]" else "\x7b " ++ commaSeparated elems ++ " \x7d"

/-- A constant without its type, with at most `depth` layers of aggregates. -/
def constantBodyWithin : (depth : Nat) → Constant → Except Dangling String
  | _, .int type bits => do
    match ← program.types.shape type with
    | .int width => return intConstantText width.toNat bits
    | _ => return intConstantText maxIntBits bits
  | _, .float _ bits => return floatBitsText bits
  | _, .null _ => return "null"
  | _, .undef _ => return "undef"
  | 0, .aggregate .. => return ""
  | depth + 1, .aggregate type elems => do
    let isArray := match ← program.types.shape type with
      | .array .. => true
      | _ => false
    let texts ← elems.mapM fun id => do
      let elem ← program.constant id
      return program.types.text elem.type ++ " " ++ (← constantBodyWithin depth elem)
    return aggregateText isArray texts
  | _, .global id => return "@" ++ (← program.global id).name
  | _, .function id => return "@" ++ (← program.function id).name

/-- A constant without its type.  Elements of an aggregate were interned before it, so there are no
more layers than constants, plus one for a constant that is not interned. -/
def constantBody (constant : Constant) : Except Dangling String :=
  program.constantBodyWithin (program.constants.size + 1) constant

/-- A constant behind its type. -/
def constantText (constant : Constant) : Except Dangling String :=
  return program.types.text constant.type ++ " " ++ (← program.constantBody constant)

/-! ## Operands -/

/-- Reference to an instruction's result. -/
def instRef (id : InstId) (inst : Inst) : String :=
  match inst.name with
  | some name => "%" ++ name
  | none => "%v" ++ toString id.index

/-- Reference to an argument. -/
def argRef (arg : Arg) : String :=
  match arg.name with
  | some name => "%" ++ name
  | none => "%arg" ++ toString arg.number

/-- Reference to a block. -/
def blockRef (id : BlockId) : Except Dangling String := do
  let block ← program.block id
  match block.label with
  | some label => return "%" ++ label
  | none =>
    let owner ← program.function block.func
    return "%bb" ++ toString ((owner.blocks.findIdx? (· == id)).getD id.index)

/-- An operand without its type. -/
def operandRef : Operand → Except Dangling String
  | .const id => do program.constantBody (← program.constant id)
  | .arg id => return argRef (← program.arg id)
  | .inst id => return instRef id (← program.inst id)
  | .block id => program.blockRef id
  | .text text => return text

/-- An operand behind its type, if it has one. -/
def operandText : Operand → Except Dangling String
  | .const id => do program.constantText (← program.constant id)
  | .arg id => do
    let arg ← program.arg id
    return program.types.text arg.type ++ " " ++ argRef arg
  | .inst id => do
    let inst ← program.inst id
    return program.types.text inst.type ++ " " ++ instRef id inst
  | .block id => return "label " ++ (← program.blockRef id)
  | .text text => return text

/-- Operands with their types, separated by commas. -/
def operandsText (operands : List Operand) : Except Dangling String :=
  return commaSeparated (← operands.mapM program.operandText)

/-! ## Instructions -/

/-- A head, and operands each behind a comma. -/
def headAndOperands (head : String) (operands : List Operand) : Except Dangling String :=
  return commaSeparated (head :: (← operands.mapM program.operandText))

/-- Two operands of one type, which is written once; otherwise every operand with its own. -/
def pairText : List Operand → Except Dangling String
  | [left, right] => return (← program.operandText left) ++ ", " ++ (← program.operandRef right)
  | operands => program.operandsText operands

/-- What an instruction does, without the name of its result. -/
def actionText (inst : Inst) : Except Dangling String := do
  let type := program.types.text inst.type
  match inst.kind, inst.operands with
  | .load, operands => program.headAndOperands ("load " ++ type) operands
  | .ret, [] => return "ret void"
  | .alloca allocated, operands =>
    program.headAndOperands ("alloca " ++ program.types.text allocated) operands
  | .getElementPtr source, operands =>
    program.headAndOperands ("getelementptr " ++ program.types.text source) operands
  | .call, operands =>
    match operands.getLast? with
    | none => return "call " ++ type ++ " "
    | some callee =>
      let callee ← program.operandRef callee
      let args ← program.operandsText operands.dropLast
      return "call " ++ type ++ " " ++ callee ++ "(" ++ args ++ ")"
  | .br, [condition, ifFalse, ifTrue] =>
    return "br " ++ (← program.operandsText [condition, ifTrue, ifFalse])
  | .binary op, operands => return op.name ++ " " ++ (← program.pairText operands)
  | .compare comparison, operands =>
    let mnemonic := match comparison with
      | .int _ => "icmp"
      | .float _ => "fcmp"
    return mnemonic ++ " " ++ comparison.name ++ " " ++ (← program.pairText operands)
  | kind, [] => return kind.mnemonic
  | kind, operands => return kind.mnemonic ++ " " ++ (← program.operandsText operands)

/-- An instruction, with the name of its result if it has one. -/
def instText (id : InstId) : Except Dangling String := do
  let inst ← program.inst id
  let isVoid ← program.types.isVoid inst.type
  let action ← program.actionText inst
  return if isVoid then action else instRef id inst ++ " = " ++ action

end Program

end IrStream
