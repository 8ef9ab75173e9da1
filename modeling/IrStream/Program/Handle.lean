/-!
# Handles

A program keeps its entities in arenas and refers to them by *handles*: positions in the arena,
assigned at creation and never reused.  Each kind of entity has a handle type of its own, so that
a block is never looked up among the constants.

Nothing in a handle says that its arena really is that long.  A look-up outside the arena is
answered by `Dangling`, which names the handle that dangles.
-/

set_option autoImplicit false

namespace IrStream

/-- Handle of a type. -/
structure TypeId where
  index : Nat
  deriving DecidableEq

/-- Handle of a constant. -/
structure ConstId where
  index : Nat
  deriving DecidableEq

/-- Handle of a global variable. -/
structure GlobalId where
  index : Nat
  deriving DecidableEq

/-- Handle of a function. -/
structure FuncId where
  index : Nat
  deriving DecidableEq

/-- Handle of a basic block.  All functions of a program share one block arena. -/
structure BlockId where
  index : Nat
  deriving DecidableEq

/-- Handle of an instruction.  All blocks of a program share one instruction arena. -/
structure InstId where
  index : Nat
  deriving DecidableEq

/-- Handle of a formal argument.  All functions of a program share one argument arena. -/
structure ArgId where
  index : Nat
  deriving DecidableEq

/-! ## Types that every arena begins with -/

namespace TypeId

def void : TypeId := ⟨0⟩
def i1 : TypeId := ⟨1⟩
def i8 : TypeId := ⟨2⟩
def i32 : TypeId := ⟨3⟩
def i64 : TypeId := ⟨4⟩

/-- Pointer in address space 0. -/
def ptr : TypeId := ⟨5⟩

end TypeId

/-- A handle outside its arena. -/
inductive Dangling where
  | type (id : TypeId)
  | constant (id : ConstId)
  | global (id : GlobalId)
  | function (id : FuncId)
  | block (id : BlockId)
  | inst (id : InstId)
  | arg (id : ArgId)
  deriving DecidableEq

/-- Look up a position in an arena; `dangling` is the answer outside it. -/
def resolve {α : Type} (arena : Array α) (index : Nat) (dangling : Dangling) : Except Dangling α :=
  match arena[index]? with
  | some entry => .ok entry
  | none => .error dangling

end IrStream
