import IrStream.Types.Arena

/-!
# Sizes, alignments and field offsets

Sizes are natural numbers with a limit of 64 bits.  A type has no size in memory when it is void,
a function type, or a struct without a body, and none either when the size would pass the limit;
`NoLayout` tells the two apart.

* `Types.extent` is the recursion: the alignment of a type and the distance between consecutive
  elements of it, each of which may be missing without the other.
* `placeFields` puts struct fields one behind the other, each at the next multiple of its
  alignment.
* `Types.storeSize?`, `Types.abiAlign?`, `Types.allocSize?` and `Types.structLayout?` are the
  queries; they answer `none` for a type without a layout.
-/

set_option autoImplicit false

namespace IrStream

/-! ## Target description -/

/-- Pointer widths of the target. -/
structure DataLayout where
  /-- Bytes of a pointer in any address space that is not listed. -/
  pointerSize : UInt32
  /-- Bytes of a pointer by address space, in increasing order of the space. -/
  addressSpaces : List (UInt32 × UInt32)
  deriving DecidableEq

/-- Put the size of an address space in its place, over the one it may have. -/
def insertAddressSpace (space size : UInt32) : List (UInt32 × UInt32) → List (UInt32 × UInt32)
  | [] => [(space, size)]
  | entry :: rest =>
    if space < entry.1 then (space, size) :: entry :: rest
    else if space = entry.1 then (space, size) :: rest
    else entry :: insertAddressSpace space size rest

namespace DataLayout

/-- Eight bytes everywhere. -/
def standard : DataLayout := ⟨8, []⟩

/-- The layout with those pointer sizes by address space, where a later entry wins. -/
def ofEntries (pointerSize : UInt32) (spaces : List (UInt32 × UInt32)) : DataLayout :=
  ⟨pointerSize, spaces.foldl (fun known entry => insertAddressSpace entry.1 entry.2 known) []⟩

/-- Bytes of a pointer in `addrSpace`. -/
def pointerBytes (layout : DataLayout) (addrSpace : UInt32) : UInt32 :=
  (layout.addressSpaces.lookup addrSpace).getD layout.pointerSize

end DataLayout

/-! ## Arithmetic -/

/-- Why a type has no layout. -/
inductive NoLayout where
  /-- Values of the type are not stored in memory. -/
  | unsized
  /-- The size does not fit in 64 bits. -/
  | overflow
  | dangling (handle : Dangling)
  deriving DecidableEq

/-- Sizes and offsets stay below this. -/
def sizeLimit : Nat := UInt64.size

/-- A size, if it is below the limit. -/
def checkedSize (size : Nat) : Except NoLayout Nat :=
  if size < sizeLimit then .ok size else .error .overflow

/-- The least multiple of `align` that is not below `value`.  An alignment of zero asks for
nothing. -/
def roundUp (value align : Nat) : Nat :=
  if align ≤ 1 then value else (value + align - 1) / align * align

/-- Bytes that hold an integer of that many bits. -/
def intBytes (bits : UInt32) : Nat :=
  (bits.toNat + 7) / 8

/-- Alignment of an integer stored in that many bytes: the least power of two that is not below
them, sixteen at most. -/
def intAlign (bytes : Nat) : Nat :=
  if bytes ≤ 1 then 1
  else if bytes ≤ 2 then 2
  else if bytes ≤ 4 then 4
  else if bytes ≤ 8 then 8
  else 16

/-- What a type asks of the memory that holds it. -/
structure Extent where
  align : Except NoLayout Nat
  /-- Bytes between consecutive elements. -/
  size : Except NoLayout Nat

namespace Extent

/-- The extent of a type without parts, stored in `bytes` at multiples of `align`. -/
def scalar (bytes align : Nat) : Extent :=
  ⟨.ok align, checkedSize (roundUp bytes align)⟩

/-- The extent of a type that is not stored. -/
def missing (reason : NoLayout) : Extent :=
  ⟨.error reason, .error reason⟩

/-- `length` elements in a row. -/
def times (elem : Extent) (length : Nat) : Extent :=
  ⟨elem.align, do checkedSize ((← elem.size) * length)⟩

end Extent

/-! ## Structs -/

/-- Where the fields of a struct lie, in bytes. -/
structure StructLayout where
  size : Nat
  align : Nat
  offsets : List Nat
  deriving DecidableEq

namespace StructLayout

/-- Bit offset of field `index`, if there is such a field and its bits can be counted in
64 bits. -/
def bitOffset? (layout : StructLayout) (index : Nat) : Option Nat := do
  let offset ← layout.offsets[index]?
  if offset * 8 < sizeLimit then some (offset * 8) else none

end StructLayout

/-- Place fields behind `offset` bytes of a struct aligned to `align` so far.  Fields of a packed
struct are aligned to one byte, whatever their types ask. -/
def placeFields (packed : Bool) : (offset align : Nat) → List Extent → Except NoLayout StructLayout
  | offset, align, [] => return ⟨← checkedSize (roundUp offset align), align, []⟩
  | offset, align, field :: rest => do
    let fieldAlign ← if packed then pure 1 else field.align
    let start ← checkedSize (roundUp offset fieldAlign)
    let stop ← checkedSize (start + (← field.size))
    let layout ← placeFields packed stop (max align fieldAlign) rest
    return { layout with offsets := start :: layout.offsets }

/-- The extent of a struct is that of its layout. -/
def Extent.ofLayout (layout : Except NoLayout StructLayout) : Extent :=
  ⟨layout.map (·.align), layout.map (·.size)⟩

namespace Types

variable (types : Types) (target : DataLayout)

/-- The layout of a struct, from the extents of its fields. -/
def layoutWith (extent : TypeId → Extent) (shape : StructShape) : Except NoLayout StructLayout :=
  if shape.hasBody then
    placeFields shape.packed 0 1 (shape.fields.map extent)
  else
    .error .unsized

/-- Extent of a type with at most `depth` layers of structs and arrays. -/
def extentWithin : (depth : Nat) → TypeId → Extent
  | 0, _ => .missing .unsized
  | depth + 1, id =>
    match types.shape id with
    | .error handle => .missing (.dangling handle)
    | .ok .void => .missing .unsized
    | .ok (.int bits) => .scalar (intBytes bits) (intAlign (intBytes bits))
    | .ok (.ptr addrSpace) =>
      let bytes := (target.pointerBytes addrSpace).toNat
      .scalar bytes bytes
    | .ok (.float kind) => .scalar kind.bytes kind.align
    | .ok (.func ..) => .missing .unsized
    | .ok (.struct shape) => .ofLayout (layoutWith (extentWithin depth) shape)
    | .ok (.array elem length) => (extentWithin depth elem).times length.toNat

/-- Extent of a type.  Containment by value has no cycle, so it is no deeper than the arena. -/
def extent (id : TypeId) : Extent :=
  types.extentWithin target (types.size + 1) id

/-! ## Queries -/

/-- A missing layout is an answer, a dangling handle is not. -/
def orNone {α : Type} : Except NoLayout α → Except Dangling (Option α)
  | .ok value => .ok (some value)
  | .error (.dangling handle) => .error handle
  | .error _ => .ok none

/-- Alignment of a type, in bytes. -/
def abiAlign? (id : TypeId) : Except Dangling (Option Nat) :=
  orNone (types.extent target id).align

/-- Bytes between consecutive elements of a type. -/
def allocSize? (id : TypeId) : Except Dangling (Option Nat) :=
  orNone (types.extent target id).size

/-- Bytes written when a value is stored, without padding at the end. -/
def storeSize? (id : TypeId) : Except Dangling (Option Nat) := do
  match ← types.shape id with
  | .int bits => return some (intBytes bits)
  | .ptr addrSpace => return some (target.pointerBytes addrSpace).toNat
  | .float kind => return some kind.bytes
  | _ => types.allocSize? target id

/-- Layout of a struct; `none` if `id` is not a struct or has no layout. -/
def structLayout? (id : TypeId) : Except Dangling (Option StructLayout) := do
  match ← types.shape id with
  | .struct shape => orNone (layoutWith (types.extent target) shape)
  | _ => return none

end Types

end IrStream
