import IrStream.Wire.Header

/-!
# Building a stream field by field

A `Buffer` is the front of a stream.  Every operation either appends exactly one field or fails
and appends nothing.
-/

set_option autoImplicit false

namespace IrStream

/-- Bytes written so far, and the width of the size fields among them. -/
structure Buffer where
  word : WordSize
  bytes : List UInt8
  deriving DecidableEq

namespace Buffer

def empty (word : WordSize) : Buffer :=
  ⟨word, []⟩

def size (buffer : Buffer) : Nat :=
  buffer.bytes.length

def isEmpty (buffer : Buffer) : Bool :=
  buffer.bytes.isEmpty

/-- Append bytes as they are. -/
def append (buffer : Buffer) (bytes : List UInt8) : Buffer :=
  { buffer with bytes := buffer.bytes ++ bytes }

def pushHeader (buffer : Buffer) (header : Header) : Buffer :=
  buffer.append header.toBytes

def pushByte (buffer : Buffer) (byte : UInt8) : Buffer :=
  buffer.append [byte]

def pushWord (buffer : Buffer) (value : UInt32) : Buffer :=
  buffer.append (wordField value)

/-- Append a size field, if the value fits one. -/
def pushSize (buffer : Buffer) (value : Nat) : Except FieldFault Buffer := do
  let value ← buffer.word.fit value
  return buffer.append (buffer.word.sizeField value)

/-- Append a text and the zero byte that ends it, if the text holds none itself. -/
def pushText (buffer : Buffer) (text : String) : Except FieldFault Buffer := do
  let text ← fitText text
  return buffer.append (textField text)

end Buffer

end IrStream
