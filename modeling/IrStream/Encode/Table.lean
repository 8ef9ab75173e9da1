import IrStream.Program.Basic

/-!
# Tables

A `Table` gives keys positions in the order in which they first turn up.  Keys are never removed or
moved, so a position handed out once stays valid.

* `Table.insert` registers one key.
* `Types.register` registers a type and then all types it contains, depth first.
* `Program.registerGlobal` registers a global and the constant it is initialized with.
-/

set_option autoImplicit false

namespace IrStream

/-- Keys by position, each at most once. -/
structure Table (α : Type) where
  entries : Array α
  deriving DecidableEq

namespace Table

variable {α : Type}

def empty : Table α := ⟨#[]⟩

def size (table : Table α) : Nat :=
  table.entries.size

def isEmpty (table : Table α) : Bool :=
  table.entries.isEmpty

def toList (table : Table α) : List α :=
  table.entries.toList

/-- The key at a position. -/
def get? (table : Table α) (index : Nat) : Option α :=
  table.entries[index]?

variable [DecidableEq α]

/-- The position of a key. -/
def position? (table : Table α) (key : α) : Option Nat :=
  table.entries.findIdx? (· == key)

/-- The position of a key, and the table that has it. -/
def insert (table : Table α) (key : α) : Nat × Table α :=
  match table.position? key with
  | some index => (index, table)
  | none => (table.size, ⟨table.entries.push key⟩)

end Table

/-- Types referred to by a stream. -/
abbrev TypeTable : Type := Table TypeId

/-- Constants referred to by a stream. -/
abbrev ConstantTable : Type := Table Constant

/-- Globals referred to by a stream. -/
abbrev GlobalTable : Type := Table GlobalId

namespace Types

/-- Register a type and the types it contains, at most `depth` new ones deep. -/
def registerWithin (types : Types) : (depth : Nat) → TypeTable → TypeId → Except Dangling TypeTable
  | 0, table, _ => .ok table
  | depth + 1, table, id =>
    match table.position? id with
    | some _ => .ok table
    | none => do
      let children ← types.children id
      children.foldlM (types.registerWithin depth) (table.insert id).2

/-- The position of a type, and the table that has it and all types it contains.  A type comes
before what it contains.  Types may contain themselves through function types; as every step down
registers another type of the arena, there are no more steps than types. -/
def register (types : Types) (table : TypeTable) (id : TypeId) :
    Except Dangling (Nat × TypeTable) :=
  match table.position? id with
  | some index => .ok (index, table)
  | none => return (table.size, ← types.registerWithin (types.size + 1) table id)

end Types

/-- The position of a global, and the tables that have it and its initializer. -/
def Program.registerGlobal (program : Program) (globals : GlobalTable) (constants : ConstantTable)
    (id : GlobalId) : Except Dangling (Nat × GlobalTable × ConstantTable) :=
  match globals.position? id with
  | some index => .ok (index, globals, constants)
  | none => do
    let (index, globals) := globals.insert id
    match (← program.global id).init with
    | some init => return (index, globals, (constants.insert (← program.constant init)).2)
    | none => return (index, globals, constants)

/-! ## Positions in the program -/

/-- The position of each function in program order. -/
def Program.functionTable (program : Program) : Table FuncId :=
  ⟨program.functionIds.toArray⟩

/-- The position of each block in its function. -/
def Function.blockTable (function : Function) : Table BlockId :=
  ⟨function.blocks.toArray⟩

/-- Where an instruction is in its function: the position of its block, and its own position among
the instructions of the block that get into the stream. -/
structure Location where
  block : Nat
  inst : Nat
  deriving DecidableEq

/-- Locations of the instructions of a function that have a result, the latest first. -/
structure Locations where
  entries : List (InstId × Location)
  deriving DecidableEq

namespace Locations

def empty : Locations := ⟨[]⟩

def size (locations : Locations) : Nat :=
  locations.entries.length

def isEmpty (locations : Locations) : Bool :=
  locations.entries.isEmpty

/-- The location of an instruction. -/
def find? (locations : Locations) (id : InstId) : Option Location :=
  locations.entries.lookup id

/-- Record the location of an instruction that has a result, in place of the one it may have. -/
def record (locations : Locations) (id : InstId) (hasResult : Bool) (location : Location) :
    Locations :=
  if hasResult then ⟨(id, location) :: locations.entries.filter (·.1 ≠ id)⟩ else locations

end Locations

end IrStream
