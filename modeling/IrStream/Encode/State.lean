import IrStream.Encode.Error
import IrStream.Encode.Table

/-!
# The state of encoding

Encoding fills the tables of types, constants and globals, counts what it does, and logs it.
`Encoding` is a step of it.  What was logged before a step fails stays logged, so a failing step
has a state too.
-/

set_option autoImplicit false

namespace IrStream

/-- What encoding counts. -/
structure EncodeStats where
  functions : Nat := 0
  /-- Functions without a body. -/
  declarations : Nat := 0
  blocks : Nat := 0
  /-- Instructions in the stream, those as text included. -/
  instructions : Nat := 0
  /-- Debug instructions, which do not get into the stream. -/
  skippedInstructions : Nat := 0
  unimplementedInstructions : Nat := 0
  unimplementedOperands : Nat := 0
  unimplementedConstants : Nat := 0
  unimplementedTypes : Nat := 0
  types : Nat := 0
  constants : Nat := 0
  globals : Nat := 0
  deriving DecidableEq

/-! ## The log -/

/-- How much a reader of the log wants to see. -/
inductive LogLevel where
  | debug
  | trace
  deriving DecidableEq

/-- What encoding logs. -/
inductive LogEvent where
  | unimplementedOperand (function operand : String)
  | unimplementedInstruction (function inst : String)
  | unimplementedConstant (constant : String)
  | unimplementedType (type : String)
  | encodedFunction (function : String) (blocks instructions : Nat)
  | encodedProgram (bytes functions types constants globals : Nat)
  deriving DecidableEq

/-- Value of a named field of an event. -/
inductive LogValue where
  | text (text : String)
  | count (count : Nat)
  deriving DecidableEq

namespace LogEvent

/-- Results are for debugging, what could not be encoded is only for tracing. -/
def level : LogEvent → LogLevel
  | unimplementedOperand .. => .trace
  | unimplementedInstruction .. => .trace
  | unimplementedConstant _ => .trace
  | unimplementedType _ => .trace
  | encodedFunction .. => .debug
  | encodedProgram .. => .debug

def message : LogEvent → String
  | unimplementedOperand .. => "unimplemented operand"
  | unimplementedInstruction .. => "unimplemented instruction"
  | unimplementedConstant _ => "unimplemented constant"
  | unimplementedType _ => "unimplemented type"
  | encodedFunction .. => "encoded function"
  | encodedProgram .. => "encoded program"

/-- Named fields besides the message. -/
def fields : LogEvent → List (String × LogValue)
  | unimplementedOperand function operand =>
    [("function", .text function), ("operand", .text operand)]
  | unimplementedInstruction function inst => [("function", .text function), ("inst", .text inst)]
  | unimplementedConstant constant => [("constant", .text constant)]
  | unimplementedType type => [("ty", .text type)]
  | encodedFunction function blocks instructions =>
    [("function", .text function), ("blocks", .count blocks), ("instructions", .count instructions)]
  | encodedProgram bytes functions types constants globals =>
    [("bytes", .count bytes), ("functions", .count functions), ("types", .count types),
      ("constants", .count constants), ("globals", .count globals)]

end LogEvent

/-! ## Steps -/

/-- Tables, counts and log. -/
structure EncodeState where
  types : TypeTable
  constants : ConstantTable
  globals : GlobalTable
  stats : EncodeStats
  /-- Events in the order in which they happened. -/
  log : Array LogEvent

/-- The state before anything is encoded. -/
def EncodeState.initial : EncodeState where
  types := .empty
  constants := .empty
  globals := .empty
  stats := {}
  log := #[]

/-- A step of encoding. -/
abbrev Encoding (α : Type) : Type :=
  ExceptT EncodeError (StateM EncodeState) α

instance : MonadLift (Except Dangling) Encoding where
  monadLift
    | .ok value => pure value
    | .error handle => throw (.dangling handle)

instance : MonadLift (Except FieldFault) Encoding where
  monadLift
    | .ok value => pure value
    | .error fault => throw (.field fault)

namespace Encoding

/-- Log an event. -/
def log (event : LogEvent) : Encoding Unit :=
  modify fun state => { state with log := state.log.push event }

/-- Count something. -/
def count (step : EncodeStats → EncodeStats) : Encoding Unit :=
  modify fun state => { state with stats := step state.stats }

/-- The position of a constant, which is registered if it is new. -/
def registerConstant (constant : Constant) : Encoding Nat := do
  let state ← get
  let (index, constants) := state.constants.insert constant
  set { state with constants }
  return index

/-- The position of a type, which is registered with all it contains if it is new. -/
def registerType (program : Program) (id : TypeId) : Encoding Nat := do
  let state ← get
  let (index, types) ← (program.types.register state.types id : Except Dangling _)
  set { state with types }
  return index

/-- The position of a global, which is registered with its initializer if it is new. -/
def registerGlobal (program : Program) (id : GlobalId) : Encoding Nat := do
  let state ← get
  let (index, globals, constants) ←
    (program.registerGlobal state.globals state.constants id : Except Dangling _)
  set { state with globals, constants }
  return index

/-- A number that fits a size field. -/
def sized (word : WordSize) (value : Nat) : Encoding Nat :=
  (word.fit value : Except FieldFault Nat)

/-- A text that fits a text field. -/
def unterminated (text : String) : Encoding String :=
  (fitText text : Except FieldFault String)

end Encoding

end IrStream
