import IrStream.Encode.State
import IrStream.Program.Text
import IrStream.Stream.Record

/-!
# Encoding constants, globals and types

These sections follow the functions, whose encoding fills the tables.  Encoding the constants
registers their types; encoding the globals and the types registers nothing new.

Only integer constants keep their value, low byte first and one byte for each eight bits of their
type.  Of any other constant only the type is left.  Arrays, floating-point types and structs
without a layout become their text.
-/

set_option autoImplicit false

namespace IrStream

namespace Program

variable (program : Program) (word : WordSize)

/-! ## Constants -/

/-- Bytes of an integer constant of type `type`, if that is an integer type. -/
def intPayload? (type : TypeId) (bits : BitVec 128) : Except Dangling (Option (List UInt8)) := do
  match ← program.types.shape type with
  | .int width => return some (littleEndian (intBytes width) bits.toNat)
  | _ => return none

/-- Bytes of a constant, if the stream keeps its value. -/
def constantPayload? : Constant → Except Dangling (Option (List UInt8))
  | .int type bits => program.intPayload? type bits
  | _ => return none

/-- The record of a constant. -/
def encodeConstantRecord (constant : Constant) : Encoding ConstantRecord := do
  let payload? ← (program.constantPayload? constant : Except Dangling _)
  if payload?.isNone then
    let text ← (program.constantText constant : Except Dangling String)
    Encoding.log (.unimplementedConstant text)
    Encoding.count fun stats =>
      { stats with unimplementedConstants := stats.unimplementedConstants + 1 }
  let type ← Encoding.sized word (← Encoding.registerType program constant.type)
  let payload := payload?.getD []
  let _ ← Encoding.sized word payload.length
  return ⟨type, payload⟩

/-- The constants section. -/
def encodeConstants : Encoding (List ConstantRecord) := do
  let constants := (← get).constants
  let _ ← Encoding.sized word constants.size
  constants.toList.mapM (program.encodeConstantRecord word)

/-! ## Globals -/

/-- The record of a global. -/
def encodeGlobalRecord (id : GlobalId) : Encoding GlobalRecord := do
  let global ← (program.global id : Except Dangling Global)
  return ⟨global.threadLocal, ← Encoding.unterminated global.name⟩

/-- The globals section. -/
def encodeGlobals : Encoding (List GlobalRecord) := do
  let globals := (← get).globals
  let _ ← Encoding.sized word globals.size
  globals.toList.mapM program.encodeGlobalRecord

/-! ## Types -/

/-- The record that shows a type as text. -/
def encodeTypeText (id : TypeId) : Encoding TypeRecord := do
  let text := program.types.text id
  Encoding.log (.unimplementedType text)
  Encoding.count fun stats => { stats with unimplementedTypes := stats.unimplementedTypes + 1 }
  return .unimplemented (← Encoding.unterminated text)

/-- The position of a type inside another. -/
def encodeTypeIndex (id : TypeId) : Encoding Nat := do
  Encoding.sized word (← Encoding.registerType program id)

/-- The bit offset of a field that lies `offset` bytes into its struct. -/
def encodeBitOffset (offset : Nat) : Encoding Nat := do
  if sizeLimit ≤ offset * 8 then
    throw (.field (.sizeOverflow offset word.bytes))
  Encoding.sized word (offset * 8)

/-- The record of a type. -/
def encodeTypeRecord (id : TypeId) : Encoding TypeRecord := do
  match ← (program.types.shape id : Except Dangling TypeShape) with
  | .void => return .void
  | .int bits => return .integer bits
  | .ptr addrSpace =>
    let bytes := (program.layout.pointerBytes addrSpace).toNat
    if bytes ≠ word.bytes then
      throw (.pointerSizeMismatch (program.types.text id) bytes word.bytes)
    return .pointer
  | .func params ret vararg =>
    let _ ← Encoding.sized word params.length
    let params ← params.mapM (program.encodeTypeIndex word)
    return .function params (← program.encodeTypeIndex word ret) vararg
  | .struct shape =>
    match ← (program.types.structLayout? program.layout id : Except Dangling _) with
    | none => program.encodeTypeText id
    | some layout =>
      let _ ← Encoding.sized word shape.fields.length
      let fields ← shape.fields.mapM (program.encodeTypeIndex word)
      return .struct fields (← layout.offsets.mapM (encodeBitOffset word))
  | .array .. => program.encodeTypeText id
  | .float _ => program.encodeTypeText id

/-- The types section. -/
def encodeTypes : Encoding (List TypeRecord) := do
  let types := (← get).types
  let _ ← Encoding.sized word types.size
  types.toList.mapM (program.encodeTypeRecord word)

end Program

end IrStream
