import IrStream.Proofs.Program.Built

/-!
# Who owns what

In a built program every argument, block and instruction has one owner, and the owner lists it once
(`Program.Consistent`).  Each operation is looked at by itself: it changes at most two arenas, and
in each of them at most one entry besides the new ones.

Ownership is stored twice.  A block has a field for its function, and the function has a list of its
blocks; a block and its instructions are the same once more.  Going down one uses the lists and
going up the fields, and the encoder does both: it goes through the lists to write records, and
looks at the fields to see whether an operand belongs to the same function.  That it writes what it
means depends on the two being about the same thing.

The invariant has a clause for each list, which says that what is listed names the owner of the
list, and one that says that nothing is listed twice.  The converse, that everything is listed by
the owner that it names, is `Program.Listed` and `Program.Rooted`; it is kept apart since less
depends on it.

What instructions use is also part of it: operands refer to what the program has.

## Statements

* `Consistent.addFunction`, `Consistent.addBlock`, `Consistent.addInst`: the operations that make
  something that is owned.  The new entry is behind all others in its arena, so nobody can have
  listed it before.
* `Consistent.of_sameBodies`: the operations on types, constants and globals, all at once.
* `Step.consistent`, `Built.consistent`: **built programs are consistent**, and they have the types
  that every arena begins with.
* `Step.types_extends`: no operation takes a type away.
-/

set_option autoImplicit false

namespace IrStream

/-- An operand that is in range stays there, since arenas only grow. -/
theorem Operand.InRange.mono {program after : Program} {operand : Operand}
    (h : operand.InRange program) (constants : program.constants.size ≤ after.constants.size)
    (args : program.args.size ≤ after.args.size) (insts : program.insts.size ≤ after.insts.size)
    (blocks : program.blocks.size ≤ after.blocks.size) : operand.InRange after := by
  cases operand with
  | const id => exact Nat.lt_of_lt_of_le h constants
  | arg id => exact Nat.lt_of_lt_of_le h args
  | inst id => exact Nat.lt_of_lt_of_le h insts
  | block id => exact Nat.lt_of_lt_of_le h blocks
  | text => trivial

namespace Program

/-- Owners and what they list agree, and instructions use only handles the program gave out.  This
is what the encoder relies on: the blocks of a function are its own, and so are the instructions of
a block. -/
structure Consistent (program : Program) : Prop where
  /-- An argument stands for a parameter of its function, and has its position and type. -/
  arg : ∀ {id arg}, program.arg id = .ok arg → ∃ function params ret vararg,
    program.function arg.func = .ok function
      ∧ program.types.shape function.type = .ok (.func params ret vararg)
      ∧ params[arg.number]? = some arg.type ∧ function.args[arg.number]? = some id
  /-- A function lists no block twice. -/
  nodup_blocks : ∀ {id function}, program.function id = .ok function → function.blocks.Nodup
  /-- A block that a function lists names the function. -/
  block : ∀ {id function}, program.function id = .ok function →
    ∀ listed ∈ function.blocks, ∃ block, program.block listed = .ok block ∧ block.func = id
  /-- A block lists no instruction twice. -/
  nodup_insts : ∀ {id block}, program.block id = .ok block → block.insts.Nodup
  /-- An instruction that a block lists names the block. -/
  inst : ∀ {id block}, program.block id = .ok block →
    ∀ listed ∈ block.insts, ∃ inst, program.inst listed = .ok inst ∧ inst.block = id
  /-- Operands refer to entries of the program. -/
  operands : ∀ {id inst}, program.inst id = .ok inst →
    ∀ operand ∈ inst.operands, operand.InRange program

theorem Consistent.empty (layout : DataLayout) : (Program.empty layout).Consistent where
  arg h := by simp [arg_eq_ok_iff, Program.empty] at h
  nodup_blocks h := by simp [function_eq_ok_iff, Program.empty] at h
  block h := by simp [function_eq_ok_iff, Program.empty] at h
  nodup_insts h := by simp [block_eq_ok_iff, Program.empty] at h
  inst h := by simp [block_eq_ok_iff, Program.empty] at h
  operands h := by simp [inst_eq_ok_iff, Program.empty] at h

variable {program after : Program}

/-! ## One operation

The operations on types, constants and globals are treated by one lemma, since they own nothing. -/

/-- Types, constants and globals are owned by nobody.  So changing them leaves owners and lists as
they are. -/
theorem Consistent.of_sameBodies (consistent : program.Consistent) {layout : DataLayout}
    {types : Types} {constants : Constants} {globals : Array Global}
    (kept : program.types.Extends types) (larger : program.constants.size ≤ constants.size) :
    { program with layout, types, constants, globals }.Consistent where
  arg h := by
    obtain ⟨function, params, ret, vararg, owner, shape, param, listed⟩ := consistent.arg h
    exact ⟨function, params, ret, vararg, owner, kept.shape_of_unnamed shape rfl, param, listed⟩
  nodup_blocks := consistent.nodup_blocks
  block := consistent.block
  nodup_insts := consistent.nodup_insts
  inst := consistent.inst
  operands h operand mem :=
    (consistent.operands h operand mem).mono larger (Nat.le_refl _) (Nat.le_refl _) (Nat.le_refl _)

theorem size_le_internConstant (constant : Constant) :
    program.constants.size ≤ (program.internConstant constant).2.constants.size := by
  simp only [internConstant, Constants.intern]
  split
  · exact Nat.le_refl _
  · simp [Constants.size]

theorem Consistent.internConstant (consistent : program.Consistent) (constant : Constant) :
    (program.internConstant constant).2.Consistent :=
  consistent.of_sameBodies (.refl _) (size_le_internConstant constant)

/-- Names of arguments are no business of their owners.  The argument keeps its function and its
number. -/
theorem Consistent.setArgName (consistent : program.Consistent) {id : ArgId} {name : String}
    (run : program.setArgName id name = .ok after) : after.Consistent := by
  obtain ⟨arg, found, rfl⟩ := setArgName_eq_ok run
  refine ⟨?_, consistent.nodup_blocks, consistent.block, consistent.nodup_insts, consistent.inst,
    ?_⟩
  · intro other entry h
    rw [arg_eq_ok_iff] at found h
    rcases getElem?_set_eq_some found h with ⟨same, rfl⟩ | ⟨-, h⟩
    · have old : program.arg other = .ok arg := arg_eq_ok_iff.mpr (same ▸ found)
      have owned := consistent.arg old
      exact owned
    · exact consistent.arg (arg_eq_ok_iff.mpr h)
  · intro other inst h operand mem
    exact (consistent.operands h operand mem).mono (Nat.le_refl _) (by simp) (Nat.le_refl _)
      (Nat.le_refl _)

/-- An instruction may be changed, but it stays in its block.  Lists of blocks hold handles, so they
do not see the change. -/
theorem Consistent.setInst (consistent : program.Consistent) {id : InstId} {inst later : Inst}
    (found : program.inst id = .ok inst) (sameBlock : later.block = inst.block)
    (operands : ∀ operand ∈ later.operands, operand.InRange program) :
    { program with insts := program.insts.setIfInBounds id.index later }.Consistent := by
  rw [inst_eq_ok_iff] at found
  refine ⟨consistent.arg, consistent.nodup_blocks, consistent.block, consistent.nodup_insts, ?_, ?_⟩
  · intro block entry h listed mem
    obtain ⟨old, there, owner⟩ := consistent.inst h listed mem
    rw [inst_eq_ok_iff] at there
    have bound := (Array.getElem?_eq_some_iff.mp found).1
    by_cases same : listed.index = id.index
    · rw [same, found] at there
      cases there
      refine ⟨later, ?_, sameBlock.trans owner⟩
      rw [inst_eq_ok_iff, same, Array.getElem?_setIfInBounds_self, if_pos bound]
    · refine ⟨old, ?_, owner⟩
      rwa [inst_eq_ok_iff, Array.getElem?_setIfInBounds_ne (Ne.symm same)]
  · intro other entry h operand mem
    have fine : operand.InRange program := by
      rw [inst_eq_ok_iff] at h
      rcases getElem?_set_eq_some found h with ⟨-, rfl⟩ | ⟨-, h⟩
      · exact operands operand mem
      · exact consistent.operands (inst_eq_ok_iff.mpr h) operand mem
    exact fine.mono (Nat.le_refl _) (Nat.le_refl _) (by simp) (Nat.le_refl _)

/-- The new function is empty, and it owns the arguments that are added with it.  They are numbered
from zero in the order of the parameters. -/
theorem Consistent.addFunction (consistent : program.Consistent) {name : String} {type : TypeId}
    {id : FuncId} (run : program.addFunction name type = .ok (id, after)) : after.Consistent := by
  obtain ⟨params, ret, vararg, shape, -, rfl⟩ := addFunction_eq_ok run
  refine ⟨?_, ?_, ?_, consistent.nodup_insts, consistent.inst, ?_⟩
  · intro other arg h
    rw [arg_eq_ok_iff, Array.getElem?_append] at h
    split at h
    · obtain ⟨function, params, ret, vararg, owner, shape, param, listed⟩ :=
        consistent.arg (arg_eq_ok_iff.mpr h)
      rw [function_eq_ok_iff] at owner
      exact ⟨function, params, ret, vararg, function_eq_ok_iff.mpr (getElem?_push_of_some owner),
        shape, param, listed⟩
    · next new =>
      -- the argument is one of the new ones, at its number behind the old ones
      simp only [List.getElem?_toArray, List.getElem?_mapIdx, Option.map_eq_some_iff] at h
      obtain ⟨param, found, rfl⟩ := h
      have index : program.args.size + (other.index - program.args.size) = other.index := by omega
      refine ⟨⟨name, type, params.mapIdx fun number _ => ⟨program.args.size + number⟩, []⟩, params,
        ret, vararg, function_eq_ok_iff.mpr Array.getElem?_push_size, shape, found, ?_⟩
      rw [List.getElem?_mapIdx, found, Option.map_some, index]
  · intro other function h
    rcases getElem?_push_eq_some (function_eq_ok_iff.mp h) with ⟨-, rfl⟩ | h
    · exact List.nodup_nil
    · exact consistent.nodup_blocks (function_eq_ok_iff.mpr h)
  · intro other function h listed mem
    rcases getElem?_push_eq_some (function_eq_ok_iff.mp h) with ⟨-, rfl⟩ | h
    · cases mem
    · exact consistent.block (function_eq_ok_iff.mpr h) listed mem
  · intro other inst h operand mem
    exact (consistent.operands h operand mem).mono (Nat.le_refl _) (by simp) (Nat.le_refl _)
      (Nat.le_refl _)

theorem Consistent.lt_size_of_mem_blocks (consistent : program.Consistent) {id : FuncId}
    {function : Function} (h : program.function id = .ok function) {listed : BlockId}
    (mem : listed ∈ function.blocks) : listed.index < program.blocks.size := by
  obtain ⟨block, there, -⟩ := consistent.block h listed mem
  exact lt_size_of_block there

theorem Consistent.lt_size_of_mem_insts (consistent : program.Consistent) {id : BlockId}
    {block : Block} (h : program.block id = .ok block) {listed : InstId}
    (mem : listed ∈ block.insts) : listed.index < program.insts.size := by
  obtain ⟨inst, there, -⟩ := consistent.inst h listed mem
  exact lt_size_of_inst there

/-- A handle that is not listed yet may be listed last.  This is how a list of blocks, or of
instructions, grows. -/
theorem nodup_append_singleton {α : Type} {list : List α} {new : α} (distinct : list.Nodup)
    (fresh : new ∉ list) : (list ++ [new]).Nodup := by
  rw [List.nodup_append]
  refine ⟨distinct, by simp, fun listed mem single same => ?_⟩
  rintro rfl
  cases List.mem_singleton.mp same
  exact fresh mem

/-- The new block is listed last, and nowhere else because it is new.  Handles that are listed are
below the size of the arena, and the new one is equal to it. -/
theorem Consistent.addBlock (consistent : program.Consistent) {func : FuncId}
    {label : Option String} {id : BlockId} (run : program.addBlock func label = .ok (id, after)) :
    after.Consistent := by
  obtain ⟨function, found, -, rfl⟩ := addBlock_eq_ok run
  have foundAt := function_eq_ok_iff.mp found
  have bound := (Array.getElem?_eq_some_iff.mp foundAt).1
  -- one entry of functions is replaced and one block is pushed; in each goal the new one comes
  -- first
  refine ⟨?_, ?_, ?_, ?_, ?_, ?_⟩
  · intro other arg h
    obtain ⟨owner, params, ret, vararg, owned, shape, param, listed⟩ := consistent.arg h
    by_cases same : arg.func = func
    · rw [same] at owned
      cases found.symm.trans owned
      refine ⟨{ function with blocks := function.blocks ++ [⟨program.blocks.size⟩] }, params, ret,
        vararg, ?_, shape, param, listed⟩
      rw [function_eq_ok_iff, same, Array.getElem?_setIfInBounds_self, if_pos bound]
    · refine ⟨owner, params, ret, vararg, ?_, shape, param, listed⟩
      rw [function_eq_ok_iff] at owned ⊢
      rwa [Array.getElem?_setIfInBounds_ne]
      exact fun h => same (FuncId.ext h.symm)
  · intro other entry h
    rw [function_eq_ok_iff] at h
    rcases getElem?_set_eq_some foundAt h with ⟨-, rfl⟩ | ⟨-, h⟩
    · exact nodup_append_singleton (consistent.nodup_blocks found) fun mem =>
        Nat.lt_irrefl _ (consistent.lt_size_of_mem_blocks found mem)
    · exact consistent.nodup_blocks (function_eq_ok_iff.mpr h)
  · intro other entry h listed mem
    rw [function_eq_ok_iff] at h
    have old {function} (h : program.function other = .ok function)
        (mem : listed ∈ function.blocks) :
        ∃ block, (program.blocks.push ⟨func, label, []⟩)[listed.index]? = some block
          ∧ block.func = other := by
      obtain ⟨block, there, owner⟩ := consistent.block h listed mem
      exact ⟨block, getElem?_push_of_some (block_eq_ok_iff.mp there), owner⟩
    simp only [block_eq_ok_iff]
    rcases getElem?_set_eq_some foundAt h with ⟨same, rfl⟩ | ⟨-, h⟩
    · obtain rfl : other = func := FuncId.ext same
      rcases List.mem_append.mp mem with mem | mem
      · exact old found mem
      · rw [List.mem_singleton.mp mem]
        exact ⟨_, Array.getElem?_push_size, rfl⟩
    · exact old (function_eq_ok_iff.mpr h) mem
  · intro other block h
    rcases getElem?_push_eq_some (block_eq_ok_iff.mp h) with ⟨-, rfl⟩ | h
    · exact List.nodup_nil
    · exact consistent.nodup_insts (block_eq_ok_iff.mpr h)
  · intro other block h listed mem
    rcases getElem?_push_eq_some (block_eq_ok_iff.mp h) with ⟨-, rfl⟩ | h
    · cases mem
    · exact consistent.inst (block_eq_ok_iff.mpr h) listed mem
  · intro other inst h operand mem
    exact (consistent.operands h operand mem).mono (Nat.le_refl _) (Nat.le_refl _) (Nat.le_refl _)
      (by simp)

/-- The new instruction is listed last, and nowhere else because it is new.  The operands have to be
in range of the program before: an instruction cannot use itself when it is added. -/
theorem Consistent.addInst (consistent : program.Consistent) {block : BlockId} {kind : InstKind}
    {type : TypeId} {operands : List Operand} {name : Option String} {id : InstId}
    (inRange : ∀ operand ∈ operands, operand.InRange program)
    (run : program.addInst block kind type operands name = .ok (id, after)) :
    after.Consistent := by
  obtain ⟨owner, found, -, rfl⟩ := addInst_eq_ok run
  have foundAt := block_eq_ok_iff.mp found
  have bound := (Array.getElem?_eq_some_iff.mp foundAt).1
  refine ⟨consistent.arg, consistent.nodup_blocks, ?_, ?_, ?_, ?_⟩
  · intro other function h listed mem
    obtain ⟨entry, there, owned⟩ := consistent.block h listed mem
    by_cases same : listed = block
    · subst same
      cases found.symm.trans there
      refine ⟨{ owner with insts := owner.insts ++ [⟨program.insts.size⟩] }, ?_, owned⟩
      rw [block_eq_ok_iff, Array.getElem?_setIfInBounds_self, if_pos bound]
    · refine ⟨entry, ?_, owned⟩
      rw [block_eq_ok_iff] at there ⊢
      rwa [Array.getElem?_setIfInBounds_ne]
      exact fun h => same (BlockId.ext h.symm)
  · intro other entry h
    rw [block_eq_ok_iff] at h
    rcases getElem?_set_eq_some foundAt h with ⟨-, rfl⟩ | ⟨-, h⟩
    · exact nodup_append_singleton (consistent.nodup_insts found) fun mem =>
        Nat.lt_irrefl _ (consistent.lt_size_of_mem_insts found mem)
    · exact consistent.nodup_insts (block_eq_ok_iff.mpr h)
  · intro other entry h listed mem
    rw [block_eq_ok_iff] at h
    have old {block'} (h : program.block other = .ok block') (mem : listed ∈ block'.insts) :
        ∃ inst, (program.insts.push ⟨kind, type, operands, name, block⟩)[listed.index]? = some inst
          ∧ inst.block = other := by
      obtain ⟨inst, there, owner⟩ := consistent.inst h listed mem
      exact ⟨inst, getElem?_push_of_some (inst_eq_ok_iff.mp there), owner⟩
    simp only [inst_eq_ok_iff]
    rcases getElem?_set_eq_some foundAt h with ⟨same, rfl⟩ | ⟨-, h⟩
    · obtain rfl : other = block := BlockId.ext same
      rcases List.mem_append.mp mem with mem | mem
      · exact old found mem
      · rw [List.mem_singleton.mp mem]
        exact ⟨_, Array.getElem?_push_size, rfl⟩
    · exact old (block_eq_ok_iff.mpr h) mem
  · intro other inst h operand mem
    have fine : operand.InRange program := by
      rcases getElem?_push_eq_some (inst_eq_ok_iff.mp h) with ⟨-, rfl⟩ | h
      · exact inRange operand mem
      · exact consistent.operands (inst_eq_ok_iff.mpr h) operand mem
    exact fine.mono (Nat.le_refl _) (Nat.le_refl _) (by simp) (by simp)

/-! ## Every operation -/

/-- Owners and lists are changed together, one step at a time.  There is one case for each
operation; those that touch no body share a lemma. -/
theorem Step.consistent (ptr : program.types.Has .ptr) (consistent : program.Consistent)
    (step : Step program after) : after.Consistent := by
  cases step with
  | setLayout layout => exact consistent.of_sameBodies (.refl _) (Nat.le_refl _)
  | types step => exact consistent.of_sameBodies (step.extends ptr) (Nat.le_refl _)
  | internConstant => exact consistent.internConstant _
  | constInt run =>
    obtain ⟨_, -, same⟩ := constInt_eq_ok run
    cases same
    exact consistent.internConstant _
  | addGlobal _ run =>
    rw [(addGlobal_eq_ok run).2]
    exact consistent.of_sameBodies (.refl _) (Nat.le_refl _)
  | setInitializer _ run =>
    obtain ⟨global, -, rfl⟩ := setInitializer_eq_ok run
    exact consistent.of_sameBodies (.refl _) (Nat.le_refl _)
  | addFunction run => exact consistent.addFunction run
  | setArgName run => exact consistent.setArgName run
  | addBlock run => exact consistent.addBlock run
  | addInst _ _ inRange run => exact consistent.addInst inRange run
  | setOperands inRange run =>
    obtain ⟨inst, found, rfl⟩ := setOperands_eq_ok run
    exact consistent.setInst found rfl inRange
  | setInstType _ run =>
    obtain ⟨inst, found, rfl⟩ := setInstType_eq_ok run
    have operands : ∀ operand ∈ inst.operands, operand.InRange program := consistent.operands found
    exact consistent.setInst found rfl operands

/-- No operation changes what types the program has, other than by adding some.  A struct may get a
body, and that is the one way in which an old entry changes. -/
theorem Step.types_extends (ptr : program.types.Has .ptr) (step : Step program after) :
    program.types.Extends after.types := by
  cases step with
  | types step => exact step.extends ptr
  | constInt run =>
    obtain ⟨_, -, same⟩ := constInt_eq_ok run
    cases same
    exact .refl _
  | addGlobal _ run =>
    rw [(addGlobal_eq_ok run).2]
    exact .refl _
  | setInitializer _ run =>
    obtain ⟨global, -, rfl⟩ := setInitializer_eq_ok run
    exact .refl _
  | addFunction run =>
    obtain ⟨_, _, _, -, -, rfl⟩ := addFunction_eq_ok run
    exact .refl _
  | setArgName run =>
    obtain ⟨_, -, rfl⟩ := setArgName_eq_ok run
    exact .refl _
  | addBlock run =>
    obtain ⟨_, -, -, rfl⟩ := addBlock_eq_ok run
    exact .refl _
  | addInst _ _ _ run =>
    obtain ⟨_, -, -, rfl⟩ := addInst_eq_ok run
    exact .refl _
  | setOperands _ run =>
    obtain ⟨_, -, rfl⟩ := setOperands_eq_ok run
    exact .refl _
  | setInstType _ run =>
    obtain ⟨_, -, rfl⟩ := setInstType_eq_ok run
    exact .refl _
  | _ => exact .refl _

/-- **Built programs are consistent.**  The arena of types has pointers from the beginning, which
the type of a global's address needs. -/
theorem Built.consistent (built : program.Built) :
    program.Consistent ∧ program.types.Has .ptr := by
  induction built with
  | empty layout => exact ⟨.empty layout, Types.Built.initial.has_ptr⟩
  | step built step ih =>
    obtain ⟨consistent, ptr⟩ := ih
    exact ⟨step.consistent ptr consistent, (step.types_extends ptr).has ptr⟩

end Program

end IrStream
