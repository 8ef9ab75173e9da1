import IrStream.Stream.Record

/-!
# Reading streams

`Stream.read?` takes the bytes of a stream apart again.  It asks for a known tag in every place and
for valid UTF-8 in every text, reads any byte but zero as a set flag, and leaves no bytes over.

Counts come from the bytes.  `Take.times` is a loop of as many turns as a count says; as a record
takes at least a byte it gives up at once on a count that exceeds the bytes left.
-/

set_option autoImplicit false

namespace IrStream

/-- A step of reading, which takes bytes from the front of what is left. -/
abbrev Take (α : Type) : Type :=
  StateT (List UInt8) Option α

namespace Take

/-! ## Fields -/

/-- Take that many bytes. -/
def bytes (count : Nat) : Take (List UInt8) := fun input =>
  if count ≤ input.length then some (input.take count, input.drop count) else none

def byte : Take UInt8
  | [] => none
  | byte :: rest => some (byte, rest)

/-- Take a flag. -/
def flag : Take Bool :=
  return (← byte) != 0

/-- Take a 32-bit field. -/
def word : Take UInt32 :=
  return UInt32.ofNat (ofLittleEndian (← bytes 4))

/-- Take a size field. -/
def size (word : WordSize) : Take Nat :=
  return ofLittleEndian (← bytes word.bytes)

/-- Take a text and the zero byte that ends it. -/
def text : Take String := fun input =>
  match input.span (· != 0) with
  | (_, []) => none
  | (front, _ :: rest) => do
    let text ← String.fromUTF8? ⟨front.toArray⟩
    return (text, rest)

/-- Take a tag byte that has a meaning. -/
def tag {α : Type} (ofByte? : UInt8 → Option α) : Take α := do
  ofByte? (← byte)

/-! ## Sections -/

/-- Take that many records. -/
def repeating {α : Type} (record : Take α) : (count : Nat) → Take (List α)
  | 0 => return []
  | count + 1 => do
    let first ← record
    return first :: (← repeating record count)

/-- Take that many records, each at least a byte long. -/
def times {α : Type} (record : Take α) (count : Nat) : Take (List α) := fun input =>
  if count ≤ input.length then repeating record count input else none

/-- Take a count and that many records. -/
def records {α : Type} (word : WordSize) (record : Take α) : Take (List α) := do
  times record (← size word)

/-! ## Records -/

def operand (word : WordSize) : Take OperandRecord := do
  match ← tag OperandKind.ofByte? with
  | .constant => return .constant (← size word)
  | .localVariable =>
    let block ← size word
    return .localVariable block (← size word)
  | .type => return .type (← size word)
  | .function => return .function (← size word)
  | .block => return .block (← size word)
  | .arg => return .arg (← size word)
  | .global => return .global (← size word)
  | .predicate => return .predicate (← tag IntPredicate.ofByte?)
  | .unimplemented => return .unimplemented (← text)

def inst (width : WordSize) : Take InstRecord := do
  let type ← size width
  let opcode ← tag Opcode.ofByte?
  let count ← word
  return ⟨type, opcode, ← times (operand width) count.toNat⟩

def function (word : WordSize) : Take FunctionRecord := do
  let name ← text
  let type ← size word
  return ⟨name, type, ← records word (records word (inst word))⟩

def constant (word : WordSize) : Take ConstantRecord := do
  let type ← size word
  return ⟨type, ← bytes (← size word)⟩

def global : Take GlobalRecord := do
  let threadLocal ← flag
  return ⟨threadLocal, ← text⟩

def type (width : WordSize) : Take TypeRecord := do
  match ← tag TypeKind.ofByte? with
  | .void => return .void
  | .integer => return .integer (← word)
  | .pointer => return .pointer
  | .function =>
    let params ← records width (size width)
    let ret ← size width
    return .function params ret (← flag)
  | .struct =>
    let fields ← records width (size width)
    return .struct fields (← times (size width) fields.length)
  | .unimplemented => return .unimplemented (← text)

/-- Take a header. -/
def header : Take Header := do
  let magic ← word
  return ⟨magic, ← word⟩

def stream (word : WordSize) : Take Stream := do
  let header ← header
  let functions ← records word (function word)
  let constants ← records word (constant word)
  let globals ← records word global
  return ⟨header, functions, constants, globals, ← records word (type word)⟩

end Take

/-- The stream that bytes spell, if they spell one and nothing else. -/
def Stream.read? (word : WordSize) (bytes : List UInt8) : Option Stream :=
  match Take.stream word bytes with
  | some (stream, []) => some stream
  | _ => none

end IrStream
