import IrStream.Proofs.Encode.Table
import IrStream.Proofs.Program.Consistent
import Mathlib.Data.List.Nodup
import Mathlib.Data.List.Perm.Basic

/-!
# Every block is listed

`Program.Consistent` says that what a function lists is its own.  Conversely every block of the
arena is listed by the function that owns it (`Program.Listed`), so going through the functions and
their blocks is going through the block arena, each block once (`Built.flatMap_blocksOf`).

The count of skipped instructions is made while the encoder goes through functions and blocks, and
it is compared with the size of the instruction arena.  So it has to be known that nothing is in an
arena without being in some list.  `Built.length_insts` is the number that comes out.

## Statements

* `Step.listed`, `Built.listed`: every block is listed by its owner.  Of all operations only one
  makes a block, and it appends the block to the list of the function in the same step.
* `Built.flatMap_blocksOf`: the lists of all functions, one after the other, are the block arena in
  another order.  That none of them is listed twice is `Consistent`, that none is missing is
  `Listed`.
* `Built.length_insts`: as many instructions are in blocks as there are entries in the arena of
  instructions.

The last two are about permutations and not about equal lists, because functions may be filled in
turns.  For counting it makes no difference.
-/

set_option autoImplicit false

namespace IrStream

namespace Program

variable {program after : Program}

/-- The blocks that a function lists. -/
def blocksOf (program : Program) (id : FuncId) : List BlockId :=
  match program.function id with
  | .ok function => function.blocks
  | .error _ => []

/-- The instructions that a block lists, debug instructions included. -/
def instsOf (program : Program) (id : BlockId) : List InstId :=
  match program.block id with
  | .ok block => block.insts
  | .error _ => []

/-- Blocks are listed by their owners. -/
def Listed (program : Program) : Prop :=
  ∀ ⦃id block⦄, program.block id = .ok block → id ∈ program.blocksOf block.func

theorem blocksOf_of_function {id : FuncId} {function : Function}
    (found : program.function id = .ok function) : program.blocksOf id = function.blocks := by
  rw [blocksOf, found]

theorem instsOf_of_block {id : BlockId} {block : Block} (found : program.block id = .ok block) :
    program.instsOf id = block.insts := by
  rw [instsOf, found]

theorem mem_blocksOf_iff {id : FuncId} {listed : BlockId} :
    listed ∈ program.blocksOf id ↔
      ∃ function, program.function id = .ok function ∧ listed ∈ function.blocks := by
  rw [blocksOf]
  split
  · next function found => simp [found]
  · next found => simp [found]

theorem Consistent.nodup_blocksOf (consistent : program.Consistent) (id : FuncId) :
    (program.blocksOf id).Nodup := by
  rw [blocksOf]
  split
  · next found => exact consistent.nodup_blocks found
  · exact List.nodup_nil

/-! ## Operations -/

theorem Listed.addFunction (listed : program.Listed) {name : String} {type : TypeId} {id : FuncId}
    (run : program.addFunction name type = .ok (id, after)) : after.Listed := by
  obtain ⟨params, ret, vararg, -, -, rfl⟩ := addFunction_eq_ok run
  intro block entry found
  obtain ⟨function, there, mem⟩ := mem_blocksOf_iff.mp (listed found)
  exact mem_blocksOf_iff.mpr ⟨function,
    function_eq_ok_iff.mpr (getElem?_push_of_some (function_eq_ok_iff.mp there)), mem⟩

/-- The new block is the last one of its owner. -/
theorem Listed.addBlock (listed : program.Listed) {func : FuncId} {label : Option String}
    {id : BlockId} (run : program.addBlock func label = .ok (id, after)) : after.Listed := by
  obtain ⟨function, found, -, rfl⟩ := addBlock_eq_ok run
  intro block entry there
  rw [mem_blocksOf_iff]
  rcases getElem?_push_eq_some (block_eq_ok_iff.mp there) with ⟨last, rfl⟩ | old
  · exact ⟨_, resolve_set_self found, List.mem_append_right _
      (List.mem_singleton.mpr (BlockId.ext last))⟩
  · obtain ⟨owner, owned, mem⟩ := mem_blocksOf_iff.mp (listed (block_eq_ok_iff.mpr old))
    by_cases same : entry.func = func
    · rw [same] at owned ⊢
      cases found.symm.trans owned
      exact ⟨_, resolve_set_self found, List.mem_append_left _ mem⟩
    · exact ⟨owner, (resolve_set_of_ne fun index => same (FuncId.ext index)).trans owned, mem⟩

/-- Instructions do not change which blocks there are. -/
theorem Listed.addInst (listed : program.Listed) {block : BlockId} {kind : InstKind}
    {type : TypeId} {operands : List Operand} {name : Option String} {id : InstId}
    (run : program.addInst block kind type operands name = .ok (id, after)) : after.Listed := by
  obtain ⟨owner, found, -, rfl⟩ := addInst_eq_ok run
  intro other entry there
  rcases getElem?_set_eq_some (block_eq_ok_iff.mp found) (block_eq_ok_iff.mp there) with
    ⟨same, rfl⟩ | ⟨-, kept⟩
  · obtain rfl : other = block := BlockId.ext same
    have old := listed found
    exact old
  · exact listed (block_eq_ok_iff.mpr kept)

/-- A block enters the list of its function when it is added, and no list gets shorter. -/
theorem Step.listed (listed : program.Listed) (step : Step program after) : after.Listed := by
  cases step with
  | constInt run =>
    obtain ⟨_, -, same⟩ := constInt_eq_ok run
    cases same
    exact listed
  | addGlobal _ run =>
    rw [(addGlobal_eq_ok run).2]
    exact listed
  | setInitializer _ run =>
    obtain ⟨global, -, rfl⟩ := setInitializer_eq_ok run
    exact listed
  | addFunction run => exact listed.addFunction run
  | setArgName run =>
    obtain ⟨arg, -, rfl⟩ := setArgName_eq_ok run
    exact listed
  | addBlock run => exact listed.addBlock run
  | addInst _ _ _ run => exact listed.addInst run
  | setOperands _ run =>
    obtain ⟨inst, -, rfl⟩ := setOperands_eq_ok run
    exact listed
  | setInstType _ run =>
    obtain ⟨inst, -, rfl⟩ := setInstType_eq_ok run
    exact listed
  | _ => exact listed

theorem Built.listed (built : program.Built) : program.Listed := by
  induction built with
  | empty layout =>
    intro id block found
    simp [block_eq_ok_iff, Program.empty] at found
  | step built step ih => exact step.listed ih

/-! ## Counting

Two lists without repetitions that have the same members are permutations of each other. -/

theorem mem_functionIds_of_function {id : FuncId} {function : Function}
    (found : program.function id = .ok function) : id ∈ program.functionIds := by
  have bound := lt_size_of_function found
  simpa [functionIds, FuncId.ext_iff] using bound

/-- **Going through the functions is going through the blocks**, in another order. -/
theorem Built.flatMap_blocksOf (built : program.Built) :
    (program.functionIds.flatMap program.blocksOf).Perm
      ((List.range program.blocks.size).map BlockId.mk) := by
  have consistent := built.consistent.1
  refine (List.perm_ext_iff_of_nodup ?_ ?_).mpr fun id => ⟨fun mem => ?_, fun mem => ?_⟩
  · refine List.nodup_flatMap.mpr ⟨fun id _ => consistent.nodup_blocksOf id,
      nodup_functionIds.imp fun apart => ?_⟩
    -- a block has one owner
    intro listed first second
    obtain ⟨function, found, mem⟩ := mem_blocksOf_iff.mp first
    obtain ⟨other, found', mem'⟩ := mem_blocksOf_iff.mp second
    obtain ⟨block, there, rfl⟩ := consistent.block found listed mem
    obtain ⟨_, again, rfl⟩ := consistent.block found' listed mem'
    cases there.symm.trans again
    exact apart rfl
  · exact List.nodup_range.map fun _ _ same => congrArg BlockId.index same
  · obtain ⟨owner, -, mem⟩ := List.mem_flatMap.mp mem
    obtain ⟨function, found, mem⟩ := mem_blocksOf_iff.mp mem
    simpa [BlockId.ext_iff] using consistent.lt_size_of_mem_blocks found mem
  · have bound : id.index < program.blocks.size := by simpa [BlockId.ext_iff] using mem
    have found : program.block id = .ok program.blocks[id.index] :=
      block_eq_ok_iff.mpr (Array.getElem?_eq_getElem bound)
    have listed := built.listed found
    obtain ⟨function, owner, -⟩ := mem_blocksOf_iff.mp listed
    exact List.mem_flatMap.mpr ⟨_, mem_functionIds_of_function owner, listed⟩

/-- **The instructions of all blocks**, counted function by function. -/
theorem Built.length_insts (built : program.Built) :
    ((program.functionIds.flatMap program.blocksOf).flatMap program.instsOf).length
      = (program.blocks.toList.flatMap (·.insts)).length := by
  rw [(built.flatMap_blocksOf.flatMap_right program.instsOf).length_eq, List.flatMap_def,
    List.flatMap_def, List.map_map]
  refine congrArg (fun insts : List (List InstId) => insts.flatten.length) ?_
  refine List.ext_getElem (by simp) fun index bound bound' => ?_
  have here : index < program.blocks.size := by simpa using bound
  have found : program.block ⟨index⟩ = .ok program.blocks[index] :=
    block_eq_ok_iff.mpr (Array.getElem?_eq_getElem here)
  simp [instsOf_of_block found]

end Program

end IrStream
