import IrStream.Document.Basic
import IrStream.Program.Basic
import IrStream.Text.Binary
import IrStream.Types.Reading

/-!
# Resolving types, constants and operands

Types, operands and names of a document are resolved against the program built so far and, inside
a function, against the names that are in scope there.  An operand is one of

* `!` and any text: a value that programs have no model of;
* `label` and the label of a block;
* `%` and the name of an argument or an instruction, `@` and the name of a global or a function,
  either of them possibly behind a type, which is then not looked at;
* a type and a literal: a constant.

Resolving adds the types and constants that are mentioned to the program.
-/

set_option autoImplicit false

namespace IrStream

/-- A step of loading, which extends the program built so far. -/
abbrev Loader (α : Type) : Type :=
  StateT Program (Except ProgramError) α

/-- Names visible inside one function. -/
structure Scope where
  function : String
  values : List (String × Operand)
  blocks : List (String × BlockId)

namespace Scope

/-- The scope without names, outside of any function. -/
def empty : Scope := ⟨"", [], []⟩

/-- The scope at the beginning of a function. -/
def ofFunction (name : String) : Scope := ⟨name, [], []⟩

/-- Name a value. -/
def defineValue (scope : Scope) (name : String) (value : Operand) : Except ProgramError Scope :=
  if (scope.values.lookup name).isSome then
    .error (.duplicateName ("%" ++ name))
  else
    .ok { scope with values := (name, value) :: scope.values }

/-- Label a block. -/
def defineBlock (scope : Scope) (label : String) (block : BlockId) : Except ProgramError Scope :=
  if (scope.blocks.lookup label).isSome then
    .error (.duplicateName ("label %" ++ label))
  else
    .ok { scope with blocks := (label, block) :: scope.blocks }

end Scope

namespace Loader

/-- Change the types of the program. -/
def withTypes {α : Type} (step : Types → α × Types) : Loader α := do
  let program ← get
  let (result, types) := step program.types
  set { program with types }
  return result

/-- Replace the program by the outcome of an operation on it. -/
def update {α : Type} (step : Program → Except ProgramError (α × Program)) : Loader α := do
  let (result, program) ← step (← get)
  set program
  return result

/-- Add a constant. -/
def constant (constant : Constant) : Loader Operand :=
  update fun program =>
    let (id, program) := program.internConstant constant
    .ok (.const id, program)

/-! ## Types -/

/-- The type that a text spells. -/
def typeOfText (text : List Char) : Loader TypeId := do
  let program ← get
  let (types, id) := program.types.readText text
  set { program with types }
  id

mutual

/-- The type that is written. -/
def typeOf : TypeNode → Loader TypeId
  | .text text => typeOfText text.toList
  | .func ret params vararg => do
    let ret ← typeOf ret
    let params ← typesOf params
    withTypes (·.func params ret vararg)

/-- Each of the types that are written. -/
def typesOf : List TypeNode → Loader (List TypeId)
  | [] => return []
  | node :: rest => do
    let id ← typeOf node
    return id :: (← typesOf rest)

end

/-! ## Literals -/

/-- The integer that a literal spells: `true`, `false`, a decimal numeral with or without a sign
that fits in 128 bits, or `0x` and hexadecimal digits for as many bits. -/
def intLiteral? (literal : List Char) : Option Int :=
  if literal = "true".toList then some 1
  else if literal = "false".toList then some 0
  else
    match literal with
    | '0' :: 'x' :: digits => (unsigned? 16 (1 <<< maxIntBits) digits).map Int.ofNat
    | literal => signed? (1 <<< (maxIntBits - 1)) literal

/-- The bit pattern that a literal spells: `0x` and the bits themselves, or a decimal numeral
rounded to a double, and for the single format to a single. -/
def floatLiteral? (kind : FloatKind) : (literal : List Char) → Option Nat
  | '0' :: 'x' :: digits => unsigned? 16 UInt64.size digits
  | literal =>
    (doubleOfText? literal).map fun bits =>
      match kind with
      | .single => singleOfDouble bits
      | _ => bits

/-- The constant that a literal spells for a type. -/
def literal (type : TypeId) (literal : List Char) : Loader Operand := do
  let malformed := ProgramError.malformedConstant (String.ofList literal)
  if literal = "null".toList then
    constant (.null type)
  else if literal = "undef".toList || literal = "poison".toList then
    constant (.undef type)
  else
    match ← ((← get).types.shape type : Except Dangling TypeShape) with
    | .int _ =>
      match intLiteral? literal with
      | some value => return .const (← update (·.constInt type value))
      | none => throw malformed
    | .float kind =>
      match floatLiteral? kind literal with
      | some bits => constant (.float type (UInt64.ofNat bits))
      | none => throw malformed
    | _ => throw malformed

/-! ## Operands -/

/-- Whether a text begins with the mark of a name. -/
def isName : List Char → Bool
  | '%' :: _ => true
  | '@' :: _ => true
  | _ => false

/-- The value of that name, which begins with its mark. -/
def named (scope : Scope) (name : List Char) : Loader Operand := do
  match name with
  | '%' :: name =>
    let name := String.ofList name
    match scope.values.lookup name with
    | some value => return value
    | none => throw (.unknownValue scope.function name)
  | name =>
    let name := String.ofList (name.dropWhile (· == '@'))
    match (← get).findGlobal? name with
    | some id => constant (.global id)
    | none =>
      match (← get).findFunction? name with
      | some id => constant (.function id)
      | none => throw (.unknownSymbol name)

/-- The text before the last space, and the text behind it. -/
def splitLastSpace? (text : List Char) : Option (List Char × List Char) :=
  match text.reverse.span (· != ' ') with
  | (_, []) => none
  | (last, _ :: before) => some (before.reverse, last.reverse)

/-- The operand that a text spells. -/
def operandOfText (scope : Scope) (text : List Char) : Loader Operand := do
  let text := trim text
  if let '!' :: text := text then
    return .text (String.ofList text)
  if let some label := TypeReader.stripPrefix? "label ".toList text then
    let label := String.ofList ((trim label).dropWhile (· == '%'))
    match scope.blocks.lookup label with
    | some block => return .block block
    | none => throw (.unknownBlock scope.function label)
  if isName text then
    return ← named scope text
  match splitLastSpace? text with
  | none => throw (.malformedOperand (String.ofList text))
  | some (typeText, last) =>
    if isName last then
      return ← named scope last
    let type ← typeOfText typeText
    literal type last

/-- How messages show an operand that is no constant. -/
def describe : OperandNode → String
  | .text text => text
  | .aggregate .. => "<aggregate>"

/-- An operand, if it is a constant. -/
def requireConstant (node : OperandNode) : Operand → Loader ConstId
  | .const id => return id
  | _ => throw (.malformedConstant (describe node))

mutual

/-- The operand that is written. -/
def operandOf (scope : Scope) : OperandNode → Loader Operand
  | .text text => operandOfText scope text.toList
  | .aggregate type elems => do
    let type ← typeOf type
    let elems ← constantsOf scope elems
    constant (.aggregate type elems)

/-- Each of the constants that are written. -/
def constantsOf (scope : Scope) : List OperandNode → Loader (List ConstId)
  | [] => return []
  | node :: rest => do
    let id ← requireConstant node (← operandOf scope node)
    return id :: (← constantsOf scope rest)

end

end Loader

end IrStream
