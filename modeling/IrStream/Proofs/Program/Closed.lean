import IrStream.Proofs.Program.Complete

/-!
# Built programs are closed

Whatever handle is stored in a built program, it is in range of its arena (`Program.Closed`).  Most
of that is part of `Program.Consistent` and `Program.Complete`.  What is left is what those two do
not need: that an instruction belongs to a block that lists it, that a function lists arguments of
its own, and that globals have types (`Program.Rooted`).

`Closed` has one clause for each place in which an entry of an arena stores a handle, and there are
many: parts of types, elements of aggregates, types and initializers of globals, types, arguments
and blocks of functions, instructions of blocks, the kinds, types and operands of instructions, and
the owners of all of these.  It is what makes it possible to follow handles from anywhere without
looking for errors.

An arena only grows and handles are indices, so a handle that is in range stays so.  What each
operation has to show is that what it *adds* is in range.

## Statements

* `Step.rooted`, `Built.rooted`: instructions are listed by their blocks, arguments by their
  functions, and globals have types.
* `Built.closed`: **built programs are closed**, which puts the clauses of `Consistent`, `Complete`
  and `Rooted` together.

Nothing is said about names.  That a name stands for what it was given to is a matter of
`Program/Arranged.lean`.
-/

set_option autoImplicit false

namespace IrStream

namespace Program

/-- Instructions, arguments and types of globals are where they are said to be. -/
structure Rooted (program : Program) : Prop where
  /-- An instruction is listed by the block that it names. -/
  inst : ∀ {id inst}, program.inst id = .ok inst →
    ∃ block, program.block inst.block = .ok block ∧ id ∈ block.insts
  /-- An argument that is listed names the function that lists it. -/
  arg : ∀ {id function}, program.function id = .ok function →
    ∀ listed ∈ function.args, ∃ arg, program.arg listed = .ok arg ∧ arg.func = id
  /-- The type of a global is a type of the program. -/
  global : ∀ {id global}, program.global id = .ok global → program.types.Has global.type

variable {program after : Program}

theorem Rooted.empty (layout : DataLayout) : (Program.empty layout).Rooted where
  inst h := by simp [inst_eq_ok_iff, Program.empty] at h
  arg h := by simp [function_eq_ok_iff, Program.empty] at h
  global h := by simp [global_eq_ok_iff, Program.empty] at h

/-! ## Operations -/

/-- An instruction may be replaced by one in the same block. -/
theorem Rooted.setInst (rooted : program.Rooted) {id : InstId} {old new : Inst}
    (there : program.inst id = .ok old) (same : new.block = old.block) :
    { program with insts := program.insts.setIfInBounds id.index new }.Rooted where
  inst {other entry} found := by
    rcases getElem?_set_eq_some (inst_eq_ok_iff.mp there) (inst_eq_ok_iff.mp found) with
      ⟨index, rfl⟩ | ⟨-, kept⟩
    · obtain rfl : other = id := InstId.ext index
      have listed := rooted.inst there
      rw [← same] at listed
      exact listed
    · have listed := rooted.inst (inst_eq_ok_iff.mpr kept)
      exact listed
  arg := rooted.arg
  global := rooted.global

theorem Rooted.setArgName (rooted : program.Rooted) {id : ArgId} {name : String}
    (run : program.setArgName id name = .ok after) : after.Rooted := by
  obtain ⟨arg, there, rfl⟩ := setArgName_eq_ok run
  refine ⟨rooted.inst, fun {owner function} found listed mem => ?_, rooted.global⟩
  obtain ⟨old, known, owned⟩ := rooted.arg found listed mem
  by_cases same : listed = id
  · subst same
    cases there.symm.trans known
    exact ⟨_, resolve_set_self there, owned⟩
  · exact ⟨old, (resolve_set_of_ne fun index => same (ArgId.ext index)).trans known, owned⟩

/-- A new function leaves the arguments that are there. -/
theorem arg_of_addFunction {name : String} {type : TypeId} {func : FuncId}
    (run : program.addFunction name type = .ok (func, after)) {id : ArgId} {arg : Arg}
    (found : program.arg id = .ok arg) : after.arg id = .ok arg := by
  obtain ⟨params, ret, vararg, -, -, rfl⟩ := addFunction_eq_ok run
  have bound := lt_size_of_arg found
  rw [arg_eq_ok_iff] at found ⊢
  rw [Array.getElem?_append_left bound, found]

/-- The arguments of a new function are the new ones. -/
theorem Rooted.addFunction (rooted : program.Rooted) {name : String} {type : TypeId} {id : FuncId}
    (run : program.addFunction name type = .ok (id, after)) : after.Rooted := by
  have kept := @arg_of_addFunction _ _ _ _ _ run
  obtain ⟨params, ret, vararg, shape, -, rfl⟩ := addFunction_eq_ok run
  refine ⟨rooted.inst, fun {owner function} found listed mem => ?_, rooted.global⟩
  rcases getElem?_push_eq_some (function_eq_ok_iff.mp found) with ⟨last, rfl⟩ | old
  · obtain ⟨number, bound, rfl⟩ := List.mem_mapIdx.mp mem
    refine ⟨⟨⟨program.functions.size⟩, number, params[number], none⟩, ?_, FuncId.ext last.symm⟩
    rw [arg_eq_ok_iff, Array.getElem?_append_right (Nat.le_add_right _ _)]
    simp [bound]
  · obtain ⟨arg, known, owned⟩ := rooted.arg (function_eq_ok_iff.mpr old) listed mem
    exact ⟨arg, kept known, owned⟩

/-- The new block lists nothing, and its function keeps its arguments. -/
theorem Rooted.addBlock (rooted : program.Rooted) {func : FuncId} {label : Option String}
    {id : BlockId} (run : program.addBlock func label = .ok (id, after)) : after.Rooted := by
  obtain ⟨function, there, -, rfl⟩ := addBlock_eq_ok run
  refine ⟨fun {other inst} found => ?_, fun {owner entry} found listed mem => ?_, rooted.global⟩
  · obtain ⟨block, known, listed⟩ := rooted.inst found
    exact ⟨block, block_eq_ok_iff.mpr (getElem?_push_of_some (block_eq_ok_iff.mp known)), listed⟩
  · rcases getElem?_set_eq_some (function_eq_ok_iff.mp there) (function_eq_ok_iff.mp found) with
      ⟨index, rfl⟩ | ⟨-, kept⟩
    · obtain rfl : owner = func := FuncId.ext index
      have own := rooted.arg there listed mem
      exact own
    · have own := rooted.arg (function_eq_ok_iff.mpr kept) listed mem
      exact own

/-- The new instruction is listed last. -/
theorem Rooted.addInst (rooted : program.Rooted) {block : BlockId} {kind : InstKind}
    {type : TypeId} {operands : List Operand} {name : Option String} {id : InstId}
    (run : program.addInst block kind type operands name = .ok (id, after)) : after.Rooted := by
  obtain ⟨owner, there, -, rfl⟩ := addInst_eq_ok run
  refine ⟨fun {other inst} found => ?_, rooted.arg, rooted.global⟩
  rcases getElem?_push_eq_some (inst_eq_ok_iff.mp found) with ⟨last, rfl⟩ | old
  · exact ⟨_, resolve_set_self there, List.mem_append_right _
      (List.mem_singleton.mpr (InstId.ext last))⟩
  · obtain ⟨entry, known, listed⟩ := rooted.inst (inst_eq_ok_iff.mpr old)
    by_cases same : inst.block = block
    · rw [same] at known ⊢
      cases there.symm.trans known
      exact ⟨_, resolve_set_self there, List.mem_append_left _ listed⟩
    · exact ⟨entry, (resolve_set_of_ne fun index => same (BlockId.ext index)).trans known, listed⟩

/-- Every operation keeps what is rooted. -/
theorem Step.rooted (ptr : program.types.Has .ptr) (rooted : program.Rooted)
    (step : Step program after) : after.Rooted := by
  cases step with
  | types step =>
    exact ⟨rooted.inst, rooted.arg, fun found => (step.extends ptr).has (rooted.global found)⟩
  | constInt run =>
    obtain ⟨_, -, same⟩ := constInt_eq_ok run
    cases same
    exact ⟨rooted.inst, rooted.arg, rooted.global⟩
  | addGlobal inRange run =>
    rw [(addGlobal_eq_ok run).2]
    refine ⟨rooted.inst, rooted.arg, fun {id global} found => ?_⟩
    rcases getElem?_push_eq_some (global_eq_ok_iff.mp found) with ⟨-, rfl⟩ | old
    · exact inRange
    · exact rooted.global (global_eq_ok_iff.mpr old)
  | setInitializer _ run =>
    obtain ⟨global, there, rfl⟩ := setInitializer_eq_ok run
    refine ⟨rooted.inst, rooted.arg, fun {id entry} found => ?_⟩
    rcases getElem?_set_eq_some (global_eq_ok_iff.mp there) (global_eq_ok_iff.mp found) with
      ⟨-, rfl⟩ | ⟨-, kept⟩
    · have typed := rooted.global there
      exact typed
    · exact rooted.global (global_eq_ok_iff.mpr kept)
  | addFunction run => exact rooted.addFunction run
  | setArgName run => exact rooted.setArgName run
  | addBlock run => exact rooted.addBlock run
  | addInst _ _ _ run => exact rooted.addInst run
  | setOperands _ run =>
    obtain ⟨inst, there, rfl⟩ := setOperands_eq_ok run
    exact rooted.setInst there rfl
  | setInstType _ run =>
    obtain ⟨inst, there, rfl⟩ := setInstType_eq_ok run
    exact rooted.setInst there rfl
  | _ => exact ⟨rooted.inst, rooted.arg, rooted.global⟩

theorem Built.rooted (built : program.Built) : program.Rooted := by
  induction built with
  | empty layout => exact .empty layout
  | step built step ih => exact step.rooted built.consistent.2 ih

/-! ## All handles -/

/-- Every handle that an entry of an arena stores is in range of its arena. -/
structure Closed (program : Program) : Prop where
  /-- The parts of a type. -/
  type : ∀ {id shape}, program.types.shape id = .ok shape →
    ∀ child ∈ shape.children, program.types.Has child
  /-- The type of a constant, the elements of an aggregate, and what an address is that of. -/
  constant : ∀ {id constant}, program.constant id = .ok constant → constant.InRange program
  /-- The type of a global and its initializer. -/
  global : ∀ {id global}, program.global id = .ok global → program.types.Has global.type
    ∧ ∀ init, global.init = some init → init.index < program.constants.size
  /-- The type of a function, its arguments and its blocks. -/
  function : ∀ {id function}, program.function id = .ok function →
    program.types.Has function.type
    ∧ (∀ arg ∈ function.args, arg.index < program.args.size)
    ∧ ∀ block ∈ function.blocks, block.index < program.blocks.size
  /-- The owner of an argument and its type. -/
  arg : ∀ {id arg}, program.arg id = .ok arg →
    arg.func.index < program.functions.size ∧ program.types.Has arg.type
  /-- The owner of a block and its instructions. -/
  block : ∀ {id block}, program.block id = .ok block →
    block.func.index < program.functions.size
    ∧ ∀ inst ∈ block.insts, inst.index < program.insts.size
  /-- The types in the kind of an instruction, its result type, its operands and its owner. -/
  inst : ∀ {id inst}, program.inst id = .ok inst →
    inst.kind.InRange program ∧ program.types.Has inst.type
    ∧ (∀ operand ∈ inst.operands, operand.InRange program)
    ∧ inst.block.index < program.blocks.size

/-- **Built programs are closed.** -/
theorem Built.closed (built : program.Built) : program.Closed where
  type found := built.complete.types found
  constant found := built.complete.constant found
  global found := ⟨built.rooted.global found, fun _ => built.complete.init found⟩
  function found := by
    refine ⟨built.complete.signature found, fun listed mem => ?_, fun listed mem => ?_⟩
    · obtain ⟨arg, there, -⟩ := built.rooted.arg found listed mem
      exact lt_size_of_arg there
    · exact built.consistent.1.lt_size_of_mem_blocks found mem
  arg found := by
    obtain ⟨function, _, _, _, owner, -⟩ := built.consistent.1.arg found
    exact ⟨lt_size_of_function owner, built.has_type_arg found⟩
  block found := ⟨built.complete.owner found, fun _ mem =>
    built.consistent.1.lt_size_of_mem_insts found mem⟩
  inst found := by
    obtain ⟨block, there, -⟩ := built.rooted.inst found
    exact ⟨built.complete.kind found, built.complete.result found,
      built.consistent.1.operands found, lt_size_of_block there⟩

end Program

end IrStream
