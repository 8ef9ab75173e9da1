import IrStream.Program.Handle

/-!
# Constants

A constant is a type and a value, or the address of a global or a function.  Integers are kept as
128 bits of which only those below the type's width are ever set, so that two constants are equal
exactly when they are the same shape.
-/

set_option autoImplicit false

namespace IrStream

/-- Bits of the widest integer constant. -/
def maxIntBits : Nat := 128

/-- The low `width` bits of `value`. -/
def truncate (value : BitVec 128) (width : Nat) : BitVec 128 :=
  (value.setWidth width).setWidth 128

/-- The number whose two's complement in `width` bits is in the low bits of `value`.  Width zero
stands for all 128 bits. -/
def signExtend (value : BitVec 128) (width : Nat) : Int :=
  if width = 0 ∨ 128 ≤ width then value.toInt else (value.setWidth width).toInt

/-- A constant. -/
inductive Constant where
  /-- An integer; `bits` holds the value cut to the width of the type. -/
  | int (type : TypeId) (bits : BitVec 128)
  /-- A floating-point number, by its bit pattern. -/
  | float (type : TypeId) (bits : UInt64)
  | null (type : TypeId)
  | undef (type : TypeId)
  | aggregate (type : TypeId) (elems : List ConstId)
  /-- Address of a global variable. -/
  | global (id : GlobalId)
  /-- Address of a function. -/
  | function (id : FuncId)
  deriving DecidableEq

namespace Constant

/-- Type of a constant.  Addresses are pointers in address space 0. -/
def type : Constant → TypeId
  | int type _ => type
  | float type _ => type
  | null type => type
  | undef type => type
  | aggregate type _ => type
  | global _ => .ptr
  | function _ => .ptr

/-- The bits of an integer constant. -/
def intBits? : Constant → Option (BitVec 128)
  | int _ bits => some bits
  | _ => none

end Constant

/-- The constant arena: every constant of a program once, in the order of first use. -/
structure Constants where
  entries : Array Constant
  deriving DecidableEq

namespace Constants

def empty : Constants := ⟨#[]⟩

def size (constants : Constants) : Nat :=
  constants.entries.size

/-- The constant of a handle. -/
def constant (constants : Constants) (id : ConstId) : Except Dangling Constant :=
  resolve constants.entries id.index (.constant id)

/-- The handle that stands for a constant already. -/
def find? (constants : Constants) (constant : Constant) : Option ConstId :=
  (constants.entries.findIdx? (· == constant)).map ConstId.mk

/-- The handle of a constant, and the arena that has it. -/
def intern (constants : Constants) (constant : Constant) : ConstId × Constants :=
  match constants.find? constant with
  | some id => (id, constants)
  | none => (⟨constants.size⟩, ⟨constants.entries.push constant⟩)

end Constants

end IrStream
