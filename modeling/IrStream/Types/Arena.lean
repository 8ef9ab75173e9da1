import IrStream.Program.Error

/-!
# The type arena

A `Types` arena stores every shape of type once.  Shapes without a name are identified by what
they are: interning an equal shape again answers the handle it already has.  Named structs are
identified by their name alone, and get their body in a second step, so that bodies may refer to
structs declared later.

* `Types.find?` is the handle that interning would reuse, `Types.intern` looks there first and
  appends only what is new.
* `Types.setStructBody` is the one operation that changes an entry in place.  It refuses a body
  through which the struct would contain itself; `Types.containsByValue` is that test.
-/

set_option autoImplicit false

namespace IrStream

/-- Every type of a program, in the order of first use. -/
structure Types where
  shapes : Array TypeShape
  deriving DecidableEq

namespace Types

/-- The arena every program begins with: `void`, `i1`, `i8`, `i32`, `i64` and `ptr`. -/
def initial : Types :=
  ⟨#[.void, .int 1, .int 8, .int 32, .int 64, .ptr 0]⟩

def size (types : Types) : Nat :=
  types.shapes.size

def shape? (types : Types) (id : TypeId) : Option TypeShape :=
  types.shapes[id.index]?

def shape (types : Types) (id : TypeId) : Except Dangling TypeShape :=
  resolve types.shapes id.index (.type id)

/-- The struct of that name, if it is declared. -/
def named? (types : Types) (name : String) : Option TypeId :=
  (types.shapes.findIdx? (·.structName? == some name)).map TypeId.mk

/-- The handle that stands for a shape already: of a named struct the one with its name, of any
other shape the one with an equal shape. -/
def find? (types : Types) (shape : TypeShape) : Option TypeId :=
  match shape.structName? with
  | some name => types.named? name
  | none => (types.shapes.findIdx? (· == shape)).map TypeId.mk

/-- The handle of a shape, and the arena that has it.  A named struct whose name is taken keeps
the body it has. -/
def intern (types : Types) (shape : TypeShape) : TypeId × Types :=
  match types.find? shape with
  | some id => (id, types)
  | none => (⟨types.size⟩, ⟨types.shapes.push shape⟩)

def int (types : Types) (bits : UInt32) : TypeId × Types :=
  types.intern (.int bits)

def ptr (types : Types) (addrSpace : UInt32) : TypeId × Types :=
  types.intern (.ptr addrSpace)

def float (types : Types) (kind : FloatKind) : TypeId × Types :=
  types.intern (.float kind)

def func (types : Types) (params : List TypeId) (ret : TypeId) (vararg : Bool) : TypeId × Types :=
  types.intern (.func params ret vararg)

def array (types : Types) (elem : TypeId) (length : UInt64) : TypeId × Types :=
  types.intern (.array elem length)

/-- A struct that is its list of fields. -/
def literalStruct (types : Types) (fields : List TypeId) (packed : Bool) : TypeId × Types :=
  types.intern (.struct ⟨none, fields, packed, true⟩)

/-- The named struct of that name, declared without a body if it is new. -/
def declareStruct (types : Types) (name : String) : TypeId × Types :=
  types.intern (.struct ⟨some name, [], false, false⟩)

def isVoid (types : Types) (id : TypeId) : Except Dangling Bool :=
  return (← types.shape id).isVoid

/-- Types directly contained in `id`. -/
def children (types : Types) (id : TypeId) : Except Dangling (List TypeId) :=
  return (← types.shape id).children

/-! ## Containment by value -/

/-- Whether a value of type `outer` has a value of type `inner` in its storage, looking at most
`depth` layers down. -/
def containsWithin (types : Types) (inner : TypeId) : (depth : Nat) → TypeId → Except Dangling Bool
  | depth, outer =>
    if outer = inner then
      .ok true
    else
      match depth with
      | 0 => .ok false
      | depth + 1 => do
        match ← types.shape outer with
        | .struct shape => shape.fields.anyM (types.containsWithin inner depth)
        | .array elem _ => types.containsWithin inner depth elem
        | _ => return false

/-- Whether a value of type `outer` has a value of type `inner` in its storage, through struct
fields and array elements but not through pointers.  A chain of containments without a cycle is no
longer than the arena, so as many layers are enough. -/
def containsByValue (types : Types) (outer inner : TypeId) : Except Dangling Bool :=
  types.containsWithin inner types.size outer

/-- Whether `field` may stand in the body of the struct `id` called `name`. -/
def checkField (types : Types) (id : TypeId) (name : String) (field : TypeId) :
    Except ProgramError Unit := do
  match ← (types.shape field : Except Dangling TypeShape) with
  | .void => throw (.voidField name)
  | .func params ret vararg => throw (.functionField name params ret vararg)
  | _ =>
    if ← (types.containsByValue field id : Except Dangling Bool) then
      throw (.recursiveStruct name)

/-- Give the named struct `id` a body, in place of the one it may have. -/
def setStructBody (types : Types) (id : TypeId) (fields : List TypeId) (packed : Bool) :
    Except ProgramError Types := do
  match (← (types.shape id : Except Dangling TypeShape)).structName? with
  | none => throw (.notANamedStruct id)
  | some name =>
    fields.forM (types.checkField id name)
    return ⟨types.shapes.setIfInBounds id.index (.struct ⟨some name, fields, packed, true⟩)⟩

end Types

end IrStream
