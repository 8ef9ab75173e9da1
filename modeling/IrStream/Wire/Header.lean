import IrStream.Wire.Field

/-!
# The stream header

Eight bytes: a magic number and a version, both 32-bit and little-endian.
-/

set_option autoImplicit false

namespace IrStream

/-- First bytes of every stream. -/
structure Header where
  magic : UInt32
  version : UInt32
  deriving DecidableEq

namespace Header

/-- The magic number of this format. -/
def expectedMagic : UInt32 := 0xedd5f00d

/-- The version of this format. -/
def expectedVersion : UInt32 := 0

/-- The header that streams of this format begin with. -/
def current : Header := ⟨expectedMagic, expectedVersion⟩

/-- Number of bytes of a header. -/
def size : Nat := 8

/-- Why bytes do not begin with a header: there are only `length` of them. -/
structure TooShort where
  length : Nat
  deriving DecidableEq

def TooShort.message (fault : TooShort) : String :=
  "header too short: " ++ toString fault.length ++ " bytes (need " ++ toString size ++ ")"

/-- The header at the start of `bytes`; what follows it is not looked at. -/
def ofBytes (bytes : List UInt8) : Except TooShort Header :=
  if bytes.length < size then
    .error ⟨bytes.length⟩
  else
    .ok {
      magic := UInt32.ofNat (ofLittleEndian (bytes.take 4))
      version := UInt32.ofNat (ofLittleEndian ((bytes.drop 4).take 4)) }

/-- The eight bytes of a header. -/
def toBytes (header : Header) : List UInt8 :=
  wordField header.magic ++ wordField header.version

def hasExpectedMagic (header : Header) : Bool :=
  header.magic == expectedMagic

def hasExpectedVersion (header : Header) : Bool :=
  header.version == expectedVersion

@[simp]
theorem length_toBytes (header : Header) : header.toBytes.length = size := by
  simp [toBytes, wordField, size]

/-- A header reads back from the start of any bytes that begin with it. -/
theorem ofBytes_toBytes_append (header : Header) (rest : List UInt8) :
    ofBytes (header.toBytes ++ rest) = .ok header := by
  have short : ¬ (header.toBytes ++ rest).length < size := by simp
  rw [ofBytes, if_neg short]
  have magic : (header.toBytes ++ rest).take 4 = wordField header.magic := by
    simp [toBytes, wordField]
  have version : ((header.toBytes ++ rest).drop 4).take 4 = wordField header.version := by
    simp [toBytes, wordField]
  rw [magic, version]
  simp [wordField, ofLittleEndian_littleEndian]

end Header

end IrStream
