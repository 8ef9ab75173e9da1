import IrStream.Proofs.Program.Consistent

/-!
# Built programs refer to what they have

`Program.Consistent` says who owns what.  This module has the other half of what makes every look-up
in a built program succeed: whatever a type, a constant, a global, a function, a block or an
instruction refers to is in its arena (`Types.Complete`, `Program.Complete`).  Arenas only grow, so
an entry that was complete stays so (`Program.Larger`), and each operation is left with the entries
it adds or replaces.

Completeness is what turns a computation that may fail into one that does not.  Sizes, layouts,
texts and offsets are computed by following handles, and in each of these computations a handle
outside its arena is an error of its own kind.  With a complete program those errors are impossible,
and what remains are the answers that mean something: that a type has no size, or that an index
leads nowhere.

`Complete.of_larger` is the lemma that all operations share.  It asks for the new entries only:
those that were there refer to arenas that are now larger.

## Statements

* `Types.Step.complete`: parts of types, operation by operation.  A body of a struct may refer to
  types that come later in the arena, so this is about all of the arena and not about what is in
  front of an entry.
* `Larger`, `Complete.of_larger`: arenas that grow.
* `Step.complete`, `Built.complete`: **built programs are complete.**
* `Built.has_type_arg`: the type of an argument is a type of the program, since it is that of a
  parameter.
-/

set_option autoImplicit false

namespace IrStream

/-! ## Types -/

namespace Types

/-- Types are made of types of the arena. -/
def Complete (types : Types) : Prop :=
  ∀ ⦃id shape⦄, types.shape id = .ok shape → ∀ child ∈ shape.children, types.Has child

variable {types after : Types}

theorem Has.exists_shape {id : TypeId} (h : types.Has id) : ∃ shape, types.shape id = .ok shape :=
  ⟨_, shape_eq_ok_iff.mpr (Array.getElem?_eq_getElem h)⟩

theorem Complete.initial : Types.initial.Complete := by
  intro id shape found child mem
  have leaves : ∀ shape ∈ Types.initial.shapes, shape.children = [] := by decide
  rw [leaves shape (Array.mem_of_getElem? (shape_eq_ok_iff.mp found))] at mem
  cases mem

/-- A shape may be interned if the arena has its parts. -/
theorem Complete.intern (complete : types.Complete) (shape : TypeShape)
    (parts : ∀ child ∈ shape.children, types.Has child) : (types.intern shape).2.Complete := by
  rw [Types.intern]
  split
  · exact complete
  · intro id entry found child mem
    have kept : types.Has child := by
      rcases getElem?_push_eq_some (shape_eq_ok_iff.mp found) with ⟨-, rfl⟩ | old
      · exact parts child mem
      · exact complete (shape_eq_ok_iff.mpr old) child mem
    exact Nat.lt_of_lt_of_le kept (by simp [size])

theorem Interns.complete (complete : types.Complete) (interns : types.Interns after) :
    after.Complete := by
  induction interns with
  | refl => exact complete
  | intern before shape unnamed parts ih => exact ih.intern shape parts

/-- A body may refer to any type of the arena, also to those behind the struct. -/
theorem Complete.setStructBody (complete : types.Complete) {id : TypeId} {fields : List TypeId}
    {packed : Bool} (parts : ∀ field ∈ fields, types.Has field)
    (run : types.setStructBody id fields packed = .ok after) : after.Complete := by
  have kept := extends_setStructBody run
  simp only [Types.setStructBody, bind_eq_ok_iff, dangling_eq_ok_iff] at run
  obtain ⟨shape, there, run⟩ := run
  split at run
  · simp at run
  · simp only [bind_eq_ok_iff, pure_eq_ok_iff] at run
    obtain ⟨-, -, rfl⟩ := run
    intro other entry found child mem
    refine kept.has ?_
    rcases getElem?_set_eq_some (shape_eq_ok_iff.mp there) (shape_eq_ok_iff.mp found) with
      ⟨-, rfl⟩ | ⟨-, old⟩
    · exact parts child mem
    · exact complete (shape_eq_ok_iff.mpr old) child mem

theorem Step.complete (ptr : types.Has .ptr) (complete : types.Complete) (step : Step types after) :
    after.Complete := by
  cases step with
  | intern shape parts => exact complete.intern shape parts
  | setStructBody parts run => exact complete.setStructBody parts run
  | readText text => exact (readText_interns ptr text).complete complete

end Types

/-! ## Handles of types -/

/-- The type of a constant, which is a pointer if the constant is an address. -/
theorem Constant.InRange.has {program : Program} (ptr : program.types.Has .ptr)
    {constant : Constant} (inRange : constant.InRange program) :
    program.types.Has constant.type := by
  cases constant with
  | int | float | null | undef => exact inRange
  | aggregate => exact inRange.1
  | global | function => exact ptr

theorem InstKind.InRange.mono {before after : Program}
    (types : ∀ {id}, before.types.Has id → after.types.Has id) {kind : InstKind}
    (inRange : kind.InRange before) : kind.InRange after := by
  cases kind with
  | alloca | getElementPtr => exact types inRange
  | _ => trivial

/-! ## Programs -/

namespace Program

/-- Whatever an entry of an arena refers to is in its arena.  What the operands of instructions
refer to is part of `Program.Consistent`. -/
structure Complete (program : Program) : Prop where
  /-- Types are made of types of the program. -/
  types : program.types.Complete
  /-- Constants are made of constants and addresses of the program. -/
  constant : ∀ {id constant}, program.constant id = .ok constant → constant.InRange program
  /-- The initializer of a global is a constant of the program. -/
  init : ∀ {id global init}, program.global id = .ok global → global.init = some init →
    init.index < program.constants.size
  /-- A function has a type of the program. -/
  signature : ∀ {id function}, program.function id = .ok function →
    program.types.Has function.type
  /-- A block belongs to a function of the program. -/
  owner : ∀ {id block}, program.block id = .ok block →
    block.func.index < program.functions.size
  /-- The types that the kind of an instruction mentions are types of the program. -/
  kind : ∀ {id inst}, program.inst id = .ok inst → inst.kind.InRange program
  /-- The result type of an instruction is a type of the program. -/
  result : ∀ {id inst}, program.inst id = .ok inst → program.types.Has inst.type

variable {program after : Program}

theorem Complete.empty (layout : DataLayout) : (Program.empty layout).Complete where
  types := Types.Complete.initial
  constant h := by simp [constant_eq_ok_iff, Program.empty, Constants.empty] at h
  init h := by simp [global_eq_ok_iff, Program.empty] at h
  signature h := by simp [function_eq_ok_iff, Program.empty] at h
  owner h := by simp [block_eq_ok_iff, Program.empty] at h
  kind h := by simp [inst_eq_ok_iff, Program.empty] at h
  result h := by simp [inst_eq_ok_iff, Program.empty] at h

/-! ### Larger arenas -/

/-- No handle is taken back. -/
structure Larger (program after : Program) : Prop where
  types : ∀ {id}, program.types.Has id → after.types.Has id
  constants : program.constants.size ≤ after.constants.size
  globals : program.globals.size ≤ after.globals.size
  functions : program.functions.size ≤ after.functions.size

theorem Larger.constant (larger : program.Larger after) {constant : Constant}
    (h : constant.InRange program) : constant.InRange after := by
  cases constant with
  | int | float | null | undef => exact larger.types h
  | aggregate =>
    exact ⟨larger.types h.1, fun elem mem => Nat.lt_of_lt_of_le (h.2 elem mem) larger.constants⟩
  | global => exact Nat.lt_of_lt_of_le h larger.globals
  | function => exact Nat.lt_of_lt_of_le h larger.functions

/-- A program is complete after an operation if what the operation adds refers to the arenas. -/
theorem Complete.of_larger (complete : program.Complete) (larger : program.Larger after)
    (types : after.types.Complete)
    (constant : ∀ {id constant}, after.constant id = .ok constant →
      program.constant id = .ok constant ∨ constant.InRange program)
    (init : ∀ {id global init}, after.global id = .ok global → global.init = some init →
      program.global id = .ok global ∨ init.index < program.constants.size)
    (signature : ∀ {id function}, after.function id = .ok function →
      (∃ old, program.function id = .ok old ∧ function.type = old.type)
        ∨ program.types.Has function.type)
    (owner : ∀ {id block}, after.block id = .ok block →
      (∃ old, program.block id = .ok old ∧ block.func = old.func)
        ∨ block.func.index < program.functions.size)
    (inst : ∀ {id inst}, after.inst id = .ok inst → program.inst id = .ok inst
      ∨ (inst.kind.InRange program ∧ program.types.Has inst.type)) : after.Complete where
  types := types
  constant found := larger.constant ((constant found).elim complete.constant id)
  init found initialized := Nat.lt_of_lt_of_le
    ((init found initialized).elim (complete.init · initialized) id) larger.constants
  signature found := larger.types <| (signature found).elim
    (fun ⟨_, old, same⟩ => same ▸ complete.signature old) id
  owner found := Nat.lt_of_lt_of_le
    ((owner found).elim (fun ⟨_, old, same⟩ => same ▸ complete.owner old) id) larger.functions
  kind found := ((inst found).elim complete.kind (·.1)).mono larger.types
  result found := larger.types ((inst found).elim complete.result (·.2))

/-! ### Operations -/

theorem larger_internConstant (constant : Constant) :
    program.Larger (program.internConstant constant).2 :=
  ⟨id, size_le_internConstant constant, Nat.le_refl _, Nat.le_refl _⟩

/-- A constant may be interned if what it refers to is in range. -/
theorem Complete.internConstant (complete : program.Complete) {constant : Constant}
    (inRange : constant.InRange program) : (program.internConstant constant).2.Complete := by
  refine complete.of_larger (larger_internConstant constant) complete.types ?_ (fun h _ => .inl h)
    (fun h => .inl ⟨_, h, rfl⟩) (fun h => .inl ⟨_, h, rfl⟩) .inl
  intro id entry found
  simp only [Program.internConstant, Constants.intern] at found
  split at found
  · exact .inl found
  · rcases getElem?_push_eq_some (constant_eq_ok_iff.mp found) with ⟨-, rfl⟩ | old
    · exact .inr inRange
    · exact .inl (constant_eq_ok_iff.mpr old)

/-- An integer constant has an integer type of the arena. -/
theorem inRange_of_constInt {type : TypeId} {value : Int} {id : ConstId}
    (run : program.constInt type value = .ok (id, after)) :
    ∃ constant : Constant, constant.InRange program
      ∧ program.internConstant constant = (id, after) := by
  obtain ⟨bits, found, same⟩ := constInt_eq_ok run
  exact ⟨.int type (truncate (BitVec.ofInt 128 value) bits.toNat), Types.has_of_shape found, same⟩

/-- An instruction may be replaced by one that refers to types of the program. -/
theorem Complete.setInst (complete : program.Complete) {id : InstId} {old new : Inst}
    (there : program.inst id = .ok old) (kind : new.kind.InRange program)
    (result : program.types.Has new.type) :
    { program with insts := program.insts.setIfInBounds id.index new }.Complete := by
  refine complete.of_larger ⟨fun h => h, Nat.le_refl _, Nat.le_refl _, Nat.le_refl _⟩ complete.types
    .inl (fun h _ => .inl h) (fun h => .inl ⟨_, h, rfl⟩) (fun h => .inl ⟨_, h, rfl⟩) ?_
  intro other entry found
  rcases getElem?_set_eq_some (inst_eq_ok_iff.mp there) (inst_eq_ok_iff.mp found) with
    ⟨-, rfl⟩ | ⟨-, kept⟩
  · exact .inr ⟨kind, result⟩
  · exact .inl (inst_eq_ok_iff.mpr kept)

theorem Complete.addFunction (complete : program.Complete) {name : String} {type : TypeId}
    {id : FuncId} (run : program.addFunction name type = .ok (id, after)) : after.Complete := by
  obtain ⟨params, ret, vararg, shape, -, rfl⟩ := addFunction_eq_ok run
  refine complete.of_larger ⟨fun h => h, Nat.le_refl _, Nat.le_refl _, by simp⟩ complete.types .inl
    (fun h _ => .inl h) ?_ (fun h => .inl ⟨_, h, rfl⟩) .inl
  intro other function found
  rcases getElem?_push_eq_some (function_eq_ok_iff.mp found) with ⟨-, rfl⟩ | old
  · exact .inr (Types.has_of_shape shape)
  · exact .inl ⟨function, function_eq_ok_iff.mpr old, rfl⟩

/-- A block refers to its function, which was looked up. -/
theorem Complete.addBlock (complete : program.Complete) {func : FuncId} {label : Option String}
    {id : BlockId} (run : program.addBlock func label = .ok (id, after)) : after.Complete := by
  obtain ⟨function, there, -, rfl⟩ := addBlock_eq_ok run
  have bound := lt_size_of_function there
  refine complete.of_larger ⟨fun h => h, Nat.le_refl _, Nat.le_refl _, by simp⟩ complete.types .inl
    (fun h _ => .inl h) ?_ ?_ .inl
  · intro other entry found
    rcases getElem?_set_eq_some (function_eq_ok_iff.mp there) (function_eq_ok_iff.mp found) with
      ⟨same, rfl⟩ | ⟨-, kept⟩
    · exact .inl ⟨function, function_eq_ok_iff.mpr (same ▸ function_eq_ok_iff.mp there), rfl⟩
    · exact .inl ⟨entry, function_eq_ok_iff.mpr kept, rfl⟩
  · intro other entry found
    rcases getElem?_push_eq_some (block_eq_ok_iff.mp found) with ⟨-, rfl⟩ | old
    · exact .inr bound
    · exact .inl ⟨entry, block_eq_ok_iff.mpr old, rfl⟩

/-- An instruction refers to its type and to the types of its kind. -/
theorem Complete.addInst (complete : program.Complete) {block : BlockId} {kind : InstKind}
    {type : TypeId} {operands : List Operand} {name : Option String} {id : InstId}
    (kindInRange : kind.InRange program) (typeInRange : program.types.Has type)
    (run : program.addInst block kind type operands name = .ok (id, after)) : after.Complete := by
  obtain ⟨owner, there, -, rfl⟩ := addInst_eq_ok run
  refine complete.of_larger ⟨fun h => h, Nat.le_refl _, Nat.le_refl _, Nat.le_refl _⟩ complete.types
    .inl (fun h _ => .inl h) (fun h => .inl ⟨_, h, rfl⟩) ?_ ?_
  · intro other entry found
    rcases getElem?_set_eq_some (block_eq_ok_iff.mp there) (block_eq_ok_iff.mp found) with
      ⟨same, rfl⟩ | ⟨-, kept⟩
    · exact .inl ⟨owner, block_eq_ok_iff.mpr (same ▸ block_eq_ok_iff.mp there), rfl⟩
    · exact .inl ⟨entry, block_eq_ok_iff.mpr kept, rfl⟩
  · intro other entry found
    rcases getElem?_push_eq_some (inst_eq_ok_iff.mp found) with ⟨-, rfl⟩ | old
    · exact .inr ⟨kindInRange, typeInRange⟩
    · exact .inl (inst_eq_ok_iff.mpr old)

theorem Step.complete (ptr : program.types.Has .ptr) (complete : program.Complete)
    (step : Step program after) : after.Complete := by
  cases step with
  | setLayout layout =>
    exact ⟨complete.types, complete.constant, complete.init, complete.signature, complete.owner,
      complete.kind, complete.result⟩
  | types step =>
    exact complete.of_larger
      ⟨(step.extends ptr).has, Nat.le_refl _, Nat.le_refl _, Nat.le_refl _⟩
      (step.complete ptr complete.types) .inl (fun h _ => .inl h) (fun h => .inl ⟨_, h, rfl⟩)
      (fun h => .inl ⟨_, h, rfl⟩) .inl
  | internConstant inRange => exact complete.internConstant inRange
  | constInt run =>
    obtain ⟨constant, inRange, same⟩ := inRange_of_constInt run
    have interned := complete.internConstant inRange
    rwa [same] at interned
  | addGlobal inRange run =>
    rw [(addGlobal_eq_ok run).2]
    refine complete.of_larger ⟨fun h => h, Nat.le_refl _, by simp, Nat.le_refl _⟩ complete.types
      .inl ?_ (fun h => .inl ⟨_, h, rfl⟩) (fun h => .inl ⟨_, h, rfl⟩) .inl
    intro id global init found initialized
    rcases getElem?_push_eq_some (global_eq_ok_iff.mp found) with ⟨-, rfl⟩ | old
    · cases initialized
    · exact .inl (global_eq_ok_iff.mpr old)
  | setInitializer inRange run =>
    obtain ⟨global, there, rfl⟩ := setInitializer_eq_ok run
    refine complete.of_larger ⟨fun h => h, Nat.le_refl _, by simp, Nat.le_refl _⟩ complete.types
      .inl ?_ (fun h => .inl ⟨_, h, rfl⟩) (fun h => .inl ⟨_, h, rfl⟩) .inl
    intro id entry init found initialized
    rcases getElem?_set_eq_some (global_eq_ok_iff.mp there) (global_eq_ok_iff.mp found) with
      ⟨-, rfl⟩ | ⟨-, kept⟩
    · cases initialized
      exact .inr inRange
    · exact .inl (global_eq_ok_iff.mpr kept)
  | addFunction run => exact complete.addFunction run
  | setArgName run =>
    obtain ⟨arg, -, rfl⟩ := setArgName_eq_ok run
    exact ⟨complete.types, complete.constant, complete.init, complete.signature, complete.owner,
      complete.kind, complete.result⟩
  | addBlock run => exact complete.addBlock run
  | addInst kindInRange typeInRange _ run => exact complete.addInst kindInRange typeInRange run
  | setOperands _ run =>
    obtain ⟨inst, there, rfl⟩ := setOperands_eq_ok run
    have result : program.types.Has inst.type := complete.result there
    have kind : inst.kind.InRange program := complete.kind there
    exact complete.setInst there kind result
  | setInstType inRange run =>
    obtain ⟨inst, there, rfl⟩ := setInstType_eq_ok run
    have kind : inst.kind.InRange program := complete.kind there
    exact complete.setInst there kind inRange

/-- **Built programs are complete.** -/
theorem Built.complete (built : program.Built) : program.Complete := by
  induction built with
  | empty layout => exact .empty layout
  | step built step ih => exact step.complete built.consistent.2 ih

/-- The type of an argument is that of a parameter. -/
theorem Built.has_type_arg (built : program.Built) {id : ArgId} {arg : Arg}
    (found : program.arg id = .ok arg) : program.types.Has arg.type := by
  obtain ⟨function, params, ret, vararg, -, shape, param, -⟩ := built.consistent.1.arg found
  exact built.complete.types shape arg.type
    (List.mem_cons_of_mem ret (List.mem_of_getElem? param))

end Program

end IrStream