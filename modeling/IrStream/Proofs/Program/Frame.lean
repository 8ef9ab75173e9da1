import IrStream.Proofs.Program.Built

/-!
# What operations leave alone

Types, constants, globals and names of arguments change without any change to function bodies
(`Program.SameBodies`).  The functions, blocks and instructions that an operation may touch are its
`Footprint`; outside of it everything stays (`Program.Frame`).  Each operation that builds a
function body has a lemma here that says what it does and what its footprint is.

A footprint is three sets, of functions, of blocks and of instructions, and a frame says of a run
what it did not do.  Together with a fact about an entry outside of the footprint it gives the same
fact behind the run, and no more has to be known of the run.  That is how facts about bodies that
are already loaded survive everything that is loaded later.

Footprints are not exact.  Three of them are enough: a function with all that is new (`body`), some
blocks with all new instructions (`filling`), and one instruction (`one`).  They are compared by
`Footprint.Within`, and a run with a smaller footprint has a larger one as well (`Frame.widen`), so
a loop gets the footprint that suits all its rounds.

## What there is

* `Footprint.body_within`, `Footprint.filling_within`, `Footprint.one_within_filling`: which
  footprints are within which, as the program grows.
* `SameBodies.frame`: where nothing changes, every footprint will do.
* `Frame.trans`, `Frame.widen`: runs in a row.
* `addBlock_frame`, `addInst_frame`, `setInst_frame`: the operations.
-/

set_option autoImplicit false

namespace IrStream

/-- Functions, blocks and instructions that may change. -/
structure Footprint where
  /-- The functions that may change. -/
  function : FuncId → Prop
  /-- The blocks that may change. -/
  block : BlockId → Prop
  /-- The instructions that may change. -/
  inst : InstId → Prop

/-- Whatever the first footprint has, the second one has as well. -/
structure Footprint.Within (first second : Footprint) : Prop where
  function : ∀ id, first.function id → second.function id
  block : ∀ id, first.block id → second.block id
  inst : ∀ id, first.inst id → second.inst id

namespace Footprint

/-- A function, and all the blocks and instructions that the program does not have. -/
def body (program : Program) (func : FuncId) : Footprint where
  function id := id = func
  block id := program.blocks.size ≤ id.index
  inst id := program.insts.size ≤ id.index

/-- Some blocks, and all the instructions that the program does not have. -/
def filling (program : Program) (blocks : List BlockId) : Footprint where
  function _ := False
  block id := id ∈ blocks
  inst id := program.insts.size ≤ id.index

/-- One instruction. -/
def one (id : InstId) : Footprint where
  function _ := False
  block _ := False
  inst other := other = id

theorem body_within {before after : Program} {func : FuncId}
    (blocks : before.blocks.size ≤ after.blocks.size)
    (insts : before.insts.size ≤ after.insts.size) :
    (body after func).Within (body before func) :=
  ⟨fun _ => id, fun _ => Nat.le_trans blocks, fun _ => Nat.le_trans insts⟩

theorem filling_within {before after : Program} {some more : List BlockId}
    (insts : before.insts.size ≤ after.insts.size) (listed : ∀ block ∈ some, block ∈ more) :
    (filling after some).Within (filling before more) :=
  ⟨fun _ => id, listed, fun _ => Nat.le_trans insts⟩

theorem filling_within_body {before after : Program} {func : FuncId} {blocks : List BlockId}
    (insts : before.insts.size ≤ after.insts.size)
    (new : ∀ block ∈ blocks, before.blocks.size ≤ block.index) :
    (filling after blocks).Within (body before func) :=
  ⟨fun _ => False.elim, new, fun _ => Nat.le_trans insts⟩

theorem one_within_filling {program : Program} {blocks : List BlockId} {id : InstId}
    (new : program.insts.size ≤ id.index) : (one id).Within (filling program blocks) :=
  ⟨fun _ => False.elim, fun _ => False.elim, fun _ same => same ▸ new⟩

end Footprint

namespace Program

/-- The functions, blocks and instructions are the same. -/
structure SameBodies (p q : Program) : Prop where
  functions : q.functions = p.functions
  blocks : q.blocks = p.blocks
  insts : q.insts = p.insts

/-- Outside of the footprint everything stays, no function is added and no handle taken back. -/
structure Frame (footprint : Footprint) (p q : Program) : Prop where
  /-- Any other function stays as it is, or stays missing. -/
  function : ∀ id, ¬ footprint.function id → q.function id = p.function id
  /-- Any other block stays as it is. -/
  block : ∀ id, ¬ footprint.block id → q.block id = p.block id
  /-- Any other instruction stays as it is. -/
  inst : ∀ id, ¬ footprint.inst id → q.inst id = p.inst id
  /-- No function is added. -/
  functions : q.functions.size = p.functions.size
  /-- No block is taken back. -/
  blocks : p.blocks.size ≤ q.blocks.size
  /-- No instruction is taken back. -/
  insts : p.insts.size ≤ q.insts.size

variable {footprint larger : Footprint} {p q r : Program}

/-! ## Nothing changes -/

theorem SameBodies.refl (p : Program) : p.SameBodies p :=
  ⟨rfl, rfl, rfl⟩

theorem SameBodies.trans (first : p.SameBodies q) (second : q.SameBodies r) : p.SameBodies r :=
  ⟨second.functions.trans first.functions, second.blocks.trans first.blocks,
    second.insts.trans first.insts⟩

theorem sameBodies_addGlobal {name : String} {type : TypeId} {threadLocal : Bool}
    {id : GlobalId} (run : p.addGlobal name type threadLocal = .ok (id, q)) : p.SameBodies q := by
  rw [(addGlobal_eq_ok run).2]
  exact ⟨rfl, rfl, rfl⟩

/-! ## Only some things change -/

theorem Frame.trans (first : Frame footprint p q) (second : Frame footprint q r) :
    Frame footprint p r where
  function id outside := (second.function id outside).trans (first.function id outside)
  block id outside := (second.block id outside).trans (first.block id outside)
  inst id outside := (second.inst id outside).trans (first.inst id outside)
  functions := second.functions.trans first.functions
  blocks := Nat.le_trans first.blocks second.blocks
  insts := Nat.le_trans first.insts second.insts

theorem Frame.widen (within : footprint.Within larger) (frame : Frame footprint p q) :
    Frame larger p q where
  function id outside := frame.function id (mt (within.function id) outside)
  block id outside := frame.block id (mt (within.block id) outside)
  inst id outside := frame.inst id (mt (within.inst id) outside)
  functions := frame.functions
  blocks := frame.blocks
  insts := frame.insts

theorem SameBodies.frame (same : p.SameBodies q) : Frame footprint p q where
  function id _ := by rw [function, function, same.functions]
  block id _ := by rw [block, block, same.blocks]
  inst id _ := by rw [inst, inst, same.insts]
  functions := congrArg Array.size same.functions
  blocks := Nat.le_of_eq (congrArg Array.size same.blocks.symm)
  insts := Nat.le_of_eq (congrArg Array.size same.insts.symm)

/-! ## Operations that build function bodies -/

/-- A block is the last one in the arena and the last one of its function, and nothing else changes.
-/
theorem addBlock_frame {func : FuncId} {label : Option String} {id : BlockId}
    (run : p.addBlock func label = .ok (id, q)) :
    id = ⟨p.blocks.size⟩ ∧ q.blocks.size = p.blocks.size + 1
      ∧ (∃ function, p.function func = .ok function
        ∧ q.function func = .ok { function with blocks := function.blocks ++ [id] })
      ∧ q.block id = .ok ⟨func, label, []⟩
      ∧ Frame (.body p func) p q := by
  obtain ⟨function, found, rfl, rfl⟩ := addBlock_eq_ok run
  refine ⟨rfl, by simp, ⟨function, found, resolve_set_self found⟩, resolve_push_self rfl, ?_⟩
  refine ⟨fun other apart => ?_, fun other old => ?_, fun _ _ => rfl, by simp, by simp,
    Nat.le_refl _⟩
  · exact resolve_set_of_ne fun same => apart (FuncId.ext same)
  · exact resolve_push_of_ne fun same => old (Nat.le_of_eq same.symm)

/-- An instruction is the last one in the arena and the last one of its block, and nothing else
changes. -/
theorem addInst_frame {block : BlockId} {kind : InstKind} {type : TypeId}
    {operands : List Operand} {name : Option String} {id : InstId}
    (run : p.addInst block kind type operands name = .ok (id, q)) :
    id = ⟨p.insts.size⟩
      ∧ (∃ owner, p.block block = .ok owner
        ∧ q.block block = .ok { owner with insts := owner.insts ++ [id] })
      ∧ q.inst id = .ok ⟨kind, type, operands, name, block⟩
      ∧ Frame (.filling p [block]) p q := by
  obtain ⟨owner, found, rfl, rfl⟩ := addInst_eq_ok run
  refine ⟨rfl, ⟨owner, found, resolve_set_self found⟩, resolve_push_self rfl, ?_⟩
  refine ⟨fun _ _ => rfl, fun other apart => ?_, fun other old => ?_, rfl, by simp, by simp⟩
  · exact resolve_set_of_ne fun same => apart (List.mem_singleton.mpr (BlockId.ext same))
  · exact resolve_push_of_ne fun same => old (Nat.le_of_eq same.symm)

/-- An instruction is replaced. -/
theorem setInst_frame {id : InstId} {inst later : Inst} (found : p.inst id = .ok inst)
    (same : q = { p with insts := p.insts.setIfInBounds id.index later }) :
    q.inst id = .ok later ∧ Frame (.one id) p q := by
  subst same
  refine ⟨resolve_set_self found, fun _ _ => rfl, fun _ _ => rfl, fun other apart => ?_, rfl,
    Nat.le_refl _, by simp⟩
  exact resolve_set_of_ne fun same => apart (InstId.ext same)

end Program

end IrStream
