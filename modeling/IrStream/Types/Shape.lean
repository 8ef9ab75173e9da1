import IrStream.Program.Handle

/-!
# Shapes of types

A `TypeShape` is one layer of a type: what it contains is given by handles into the arena it
lives in.  Structs come in two kinds.  A struct without a name is its list of fields; a named one
is its name, and its body may be missing or be given later.
-/

set_option autoImplicit false

namespace IrStream

/-- Floating-point formats. -/
inductive FloatKind where
  | half
  | single
  | double
  /-- Extended precision, ten bytes. -/
  | extended
  | quad
  deriving DecidableEq

namespace FloatKind

def all : List FloatKind := [half, single, double, extended, quad]

def name : FloatKind → String
  | half => "half"
  | single => "float"
  | double => "double"
  | extended => "x86_fp80"
  | quad => "fp128"

/-- The format of that name, if there is one. -/
def ofName? (text : String) : Option FloatKind :=
  all.find? (·.name == text)

/-- Bytes that hold a value. -/
def bytes : FloatKind → Nat
  | half => 2
  | single => 4
  | double => 8
  | extended => 10
  | quad => 16

/-- Alignment of a value, in bytes. -/
def align : FloatKind → Nat
  | half => 2
  | single => 4
  | double => 8
  | extended => 16
  | quad => 16

theorem ofName?_name (kind : FloatKind) : ofName? kind.name = some kind := by
  cases kind <;> rfl

end FloatKind

/-- Shape of a struct. -/
structure StructShape where
  name : Option String
  fields : List TypeId
  /-- Fields follow each other without padding. -/
  packed : Bool
  /-- Whether the fields are known.  A named struct is declared without them. -/
  hasBody : Bool
  deriving DecidableEq

/-- Shape of a type. -/
inductive TypeShape where
  | void
  | int (bits : UInt32)
  | ptr (addrSpace : UInt32)
  | float (kind : FloatKind)
  | func (params : List TypeId) (ret : TypeId) (vararg : Bool)
  | struct (shape : StructShape)
  | array (elem : TypeId) (length : UInt64)
  deriving DecidableEq

namespace TypeShape

def isVoid : TypeShape → Bool
  | void => true
  | _ => false

/-- The name of a named struct. -/
def structName? : TypeShape → Option String
  | struct shape => shape.name
  | _ => none

/-- Types directly contained in a type, in the order the stream lists them: of a function the
return type comes before the parameters. -/
def children : TypeShape → List TypeId
  | func params ret _ => ret :: params
  | struct shape => shape.fields
  | array elem _ => [elem]
  | _ => []

end TypeShape

end IrStream
