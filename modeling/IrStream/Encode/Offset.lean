import IrStream.Program.Basic

/-!
# Pointer offsets

A `getelementptr` with constant indices adds a fixed number of bytes to its base.  The first index
steps over whole objects of the source type; each later one selects a field of the struct or an
element of the array reached so far.  The sum is taken modulo two to the 64.

Indices may be wider than that.  Every index counts by its low 64 bits, read as signed; so does
one that selects a field.
-/

set_option autoImplicit false

namespace IrStream

/-- Why indices have no offset. -/
inductive OffsetFault where
  /-- An index is not an integer constant. -/
  | nonConstant
  /-- The index at that position does not address `type`. -/
  | invalid (index : Nat) (type : TypeId)
  | dangling (handle : Dangling)
  deriving DecidableEq

instance : MonadLift (Except Dangling) (Except OffsetFault) where
  monadLift x := x.mapError .dangling

namespace Program

variable (program : Program)

/-- Value of an index. -/
def indexValue (index : Operand) : Except OffsetFault (BitVec 64) := do
  match index with
  | .const id =>
    match ← (program.constant id : Except Dangling Constant) with
    | .int type bits =>
      match ← (program.types.shape type : Except Dangling TypeShape) with
      | .int width => return BitVec.ofInt 64 (signExtend bits width.toNat)
      | _ => throw .nonConstant
    | _ => throw .nonConstant
  | _ => throw .nonConstant

/-- Bytes to the object `value` objects of type `type` further on.  `reached` is the type that the
index at `position` steps into. -/
def scaledOffset (position : Nat) (reached type : TypeId) (value : BitVec 64) :
    Except OffsetFault (BitVec 64) := do
  match ← (program.types.allocSize? program.layout type : Except Dangling (Option Nat)) with
  | some size => return value * BitVec.ofNat 64 size
  | none => throw (.invalid position reached)

/-- Bytes to the part of `type` that the index at `position` selects, and the type of the part. -/
def partOffset (position : Nat) (type : TypeId) (value : BitVec 64) :
    Except OffsetFault (BitVec 64 × TypeId) := do
  match ← (program.types.shape type : Except Dangling TypeShape) with
  | .struct shape =>
    if value.toInt < 0 then
      throw (.invalid position type)
    match shape.fields[value.toNat]? with
    | none => throw (.invalid position type)
    | some field =>
      let layout? ← (program.types.structLayout? program.layout type : Except Dangling _)
      match layout?.bind (·.offsets[value.toNat]?) with
      | some offset => return (BitVec.ofNat 64 offset, field)
      | none => throw (.invalid position type)
  | .array elem _ => return (← program.scaledOffset position type elem value, elem)
  | _ => throw (.invalid position type)

/-- Bytes that the indices from `position` on add, starting inside an object of type `type`. -/
def pathOffset : (position : Nat) → (type : TypeId) → List Operand →
    Except OffsetFault (BitVec 64)
  | _, _, [] => return 0
  | position, type, index :: rest => do
    let value ← program.indexValue index
    let (offset, part) ← program.partOffset position type value
    return offset + (← pathOffset (position + 1) part rest)

/-- Bytes that indices add to a pointer to objects of type `source`. -/
def pointerOffset (source : TypeId) : List Operand → Except OffsetFault (BitVec 64)
  | [] => return 0
  | index :: rest => do
    let value ← program.indexValue index
    let offset ← program.scaledOffset 0 source source value
    return offset + (← program.pathOffset 1 source rest)

end Program

end IrStream
