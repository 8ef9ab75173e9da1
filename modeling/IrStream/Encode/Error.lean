import IrStream.Program.Handle
import IrStream.Text.Quoted
import IrStream.Wire.Field

/-!
# What cannot be encoded

`EncodeError` lists the reasons why a program has no stream, with the texts that its messages
quote.
-/

set_option autoImplicit false

namespace IrStream

/-- Why a program cannot be encoded. -/
inductive EncodeError where
  /-- An operand uses a value that has no location yet: it has none at all, gets it later, or
  belongs to another function. -/
  | undefinedValue (function value : String)
  | nonConstantAllocaCount (function inst : String)
  /-- A block at this position has another number of records than the stream promises in front of
  them. -/
  | instructionCountMismatch (function : String) (block expected emitted : Nat)
  /-- A pointer type is not as wide as the size fields. -/
  | pointerSizeMismatch (type : String) (bytes width : Nat)
  | unsupportedPredicate (function predicate inst : String)
  | nonConstantOffset (function inst : String)
  /-- An index does not address the type it steps into. -/
  | invalidOffsetIndex (function : String) (index : Nat) (type inst : String)
  /-- An operand is a function without a position. -/
  | unknownFunction (name : String)
  /-- An operand is a block of another function. -/
  | unknownBlock (function block : String)
  | field (fault : FieldFault)
  | dangling (handle : Dangling)
  deriving DecidableEq

def FieldFault.message : FieldFault → String
  | interiorNul text => "string " ++ quoted text ++ " contains a NUL byte"
  | sizeOverflow value width =>
    "value " ++ toString value ++ " does not fit in a " ++ toString width ++ "-byte size field"

namespace EncodeError

/-- Where a message places its reason. -/
private def inFunction (function : String) : String :=
  "in `" ++ function ++ "`: "

def message : EncodeError → String
  | undefinedValue function value =>
    inFunction function ++ "operand `" ++ value ++ "` refers to a value with no location"
  | nonConstantAllocaCount function inst =>
    inFunction function ++ "allocation count is not an integer constant: `" ++ inst ++ "`"
  | instructionCountMismatch function block expected emitted =>
    inFunction function ++ "block " ++ toString block ++ " promised " ++ toString expected
      ++ " instructions but emitted " ++ toString emitted
  | pointerSizeMismatch type bytes width =>
    "pointer type `" ++ type ++ "` is " ++ toString bytes
      ++ " bytes wide, the stream only holds " ++ toString width ++ "-byte pointers"
  | unsupportedPredicate function predicate inst =>
    inFunction function ++ "comparison predicate `" ++ predicate ++ "` is not supported: `"
      ++ inst ++ "`"
  | nonConstantOffset function inst =>
    inFunction function ++ "pointer offset index is not an integer constant: `" ++ inst ++ "`"
  | invalidOffsetIndex function index type inst =>
    inFunction function ++ "pointer offset index " ++ toString index ++ " does not address `"
      ++ type ++ "`: `" ++ inst ++ "`"
  | unknownFunction name => "function `" ++ name ++ "` has no binary index"
  | unknownBlock function block =>
    inFunction function ++ "block `" ++ block ++ "` does not belong to this function"
  | field fault => fault.message
  | dangling _ => "a handle is outside its arena"

end EncodeError

end IrStream
