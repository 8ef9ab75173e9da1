import IrStream.Proofs.Pairing.Constants
import IrStream.Proofs.Program.Closed
import Mathlib.Algebra.Group.Nat.Defs

/-!
# Programs while they are loaded

Operations keep more than the types: an argument stays with its function, an instruction keeps its
name and its block, and a block its function (`Program.Keeps`).  So what a function offers to the
instructions in it (`Program.Offers`), it offers from then on.

`Program.Draft` is the invariant of loading: the program is built, its numbers have types of their
kind, integers are no wider than these say, and instructions use nothing but what their function
offers.  `Draft.proceeds` is what an operation has to meet to preserve it.

Instructions get their final type last, so until then a name does not mean that there is a result.
`Program.NamesResults` says that it does, but for some instructions that are not finished.

## Why an invariant beside `Built`

`Program.Built` holds of every program that operations make, and operations make programs that no
document describes: an instruction may use an argument of another function, and a constant may claim
to be an integer of a struct type.  A loaded program is never like that.  `Draft` is what is true in
addition, and it is true *at every moment* of loading and not at its end only: the proofs go by
induction on the run, which needs the moments between.

The clauses were chosen so that each operation can spoil only few of them.

* Only interning spoils `typed`, and it is enough to look at the constant that is new.
* Only setting operands spoils `offered`, and a new instruction has none.
* Everything else follows from `Program.Step`, the list of all that an operation may do.

So the lemmas `proceeds_*` for the single operations are short, and the loader above them is left
with the two side conditions that are about texts.
-/

set_option autoImplicit false

namespace IrStream

/-- Integers have an integer type that is not too wide for a constant, and no bit beyond it. -/
def Constant.Proper (program : Program) : Constant → Prop
  | .int type bits => ∃ width, program.types.shape type = .ok (.int width)
      ∧ width.toNat ≤ maxIntBits ∧ bits.toNat < 2 ^ width.toNat
  | _ => True

/-- Numbers have a type of their kind: integers are proper, and a floating-point number has such a
type. -/
def Constant.Typed (program : Program) : Constant → Prop
  | .float type _ => ∃ kind, program.types.shape type = .ok (.float kind)
  | constant => constant.Proper program

theorem Constant.Typed.proper {program : Program} {constant : Constant}
    (typed : constant.Typed program) : constant.Proper program := by
  cases constant with
  | float => trivial
  | _ => exact typed

theorem toNat_truncate_lt (value : BitVec 128) (width : Nat) :
    (truncate value width).toNat < 2 ^ width := by
  rw [truncate, BitVec.toNat_setWidth]
  exact Nat.lt_of_le_of_lt (Nat.mod_le _ _) (BitVec.isLt _)

namespace Program

variable {program p q r : Program}

/-! ## What operations keep

`Keeps` is a relation between a program and a later one.  It is reflexive and transitive, so the
steps of a run are put together without looking at the states between them. -/

/-- No type loses its shape, and entries stay where they belong. -/
structure Keeps (p q : Program) : Prop where
  /-- Types may be added, and bodies may be set. -/
  types : p.types.Extends q.types
  /-- Constants may be added. -/
  constants : p.constants.size ≤ q.constants.size
  /-- An argument stays with its function. -/
  arg : ∀ {id arg}, p.arg id = .ok arg → ∃ later, q.arg id = .ok later ∧ later.func = arg.func
  /-- A block stays with its function. -/
  block : ∀ {id block}, p.block id = .ok block →
    ∃ later, q.block id = .ok later ∧ later.func = block.func
  /-- An instruction stays in its block, and keeps its name. -/
  inst : ∀ {id inst}, p.inst id = .ok inst →
    ∃ later, q.inst id = .ok later ∧ later.name = inst.name ∧ later.block = inst.block

theorem Keeps.refl (p : Program) : p.Keeps p where
  types := .refl _
  constants := Nat.le_refl _
  arg found := ⟨_, found, rfl⟩
  block found := ⟨_, found, rfl⟩
  inst found := ⟨_, found, rfl, rfl⟩

/-- What is found in the first program is found in the second and then in the third, with the same
owner all the way. -/
theorem Keeps.trans (first : p.Keeps q) (second : q.Keeps r) : p.Keeps r where
  types := first.types.trans second.types
  constants := Nat.le_trans first.constants second.constants
  arg found := by
    obtain ⟨_, there, one⟩ := first.arg found
    obtain ⟨later, there, two⟩ := second.arg there
    exact ⟨later, there, two.trans one⟩
  block found := by
    obtain ⟨_, there, one⟩ := first.block found
    obtain ⟨later, there, two⟩ := second.block there
    exact ⟨later, there, two.trans one⟩
  inst found := by
    obtain ⟨_, there, name, block⟩ := first.inst found
    obtain ⟨later, there, name', block'⟩ := second.inst there
    exact ⟨later, there, name'.trans name, block'.trans block⟩

/-- An instruction is replaced. -/
theorem keeps_setInst {id : InstId} {old new : Inst} (there : p.inst id = .ok old)
    (name : new.name = old.name) (block : new.block = old.block) :
    p.Keeps { p with insts := p.insts.setIfInBounds id.index new } := by
  refine { Keeps.refl p with inst := fun {other inst} found => ?_ }
  by_cases same : other = id
  · subst same
    cases there.symm.trans found
    exact ⟨new, resolve_set_self there, name, block⟩
  · exact ⟨inst, (resolve_set_of_ne fun index => same (InstId.ext index)).trans found, rfl, rfl⟩

theorem keeps_setArgName {id : ArgId} {name : String} (run : p.setArgName id name = .ok q) :
    p.Keeps q := by
  obtain ⟨arg, there, rfl⟩ := setArgName_eq_ok run
  refine { Keeps.refl p with arg := fun {other old} found => ?_ }
  by_cases same : other = id
  · subst same
    cases there.symm.trans found
    exact ⟨_, resolve_set_self there, rfl⟩
  · exact ⟨old, (resolve_set_of_ne fun index => same (ArgId.ext index)).trans found, rfl⟩

theorem keeps_addFunction {name : String} {type : TypeId} {id : FuncId}
    (run : p.addFunction name type = .ok (id, q)) : p.Keeps q := by
  have kept := @arg_of_addFunction _ _ _ _ _ run
  obtain ⟨params, ret, vararg, -, -, rfl⟩ := addFunction_eq_ok run
  exact { Keeps.refl p with arg := fun found => ⟨_, kept found, rfl⟩ }

theorem keeps_addBlock {func : FuncId} {label : Option String} {id : BlockId}
    (run : p.addBlock func label = .ok (id, q)) : p.Keeps q := by
  obtain ⟨function, -, -, rfl⟩ := addBlock_eq_ok run
  exact { Keeps.refl p with block := fun {other block} found =>
    ⟨block, block_eq_ok_iff.mpr (getElem?_push_of_some (block_eq_ok_iff.mp found)), rfl⟩ }

/-- The new instruction is listed in its block; that changes the block and not its function. -/
theorem keeps_addInst {block : BlockId} {kind : InstKind} {type : TypeId}
    {operands : List Operand} {name : Option String} {id : InstId}
    (run : p.addInst block kind type operands name = .ok (id, q)) : p.Keeps q := by
  obtain ⟨owner, there, -, rfl⟩ := addInst_eq_ok run
  refine { Keeps.refl p with
    block := fun {other entry} found => ?_
    inst := fun {other inst} found =>
      ⟨inst, inst_eq_ok_iff.mpr (getElem?_push_of_some (inst_eq_ok_iff.mp found)), rfl, rfl⟩ }
  by_cases same : other = block
  · subst same
    cases there.symm.trans found
    exact ⟨_, resolve_set_self there, rfl⟩
  · exact ⟨entry, (resolve_set_of_ne fun index => same (BlockId.ext index)).trans found, rfl⟩

/-- No step takes a type or a constant away, and an argument, a block or an instruction stays with
its owner. -/
theorem Step.keeps (ptr : p.types.Has .ptr) (step : Step p q) : p.Keeps q := by
  cases step with
  | setLayout => exact { Keeps.refl p with }
  | types step => exact { Keeps.refl p with types := step.extends ptr }
  | internConstant => exact { Keeps.refl p with constants := size_le_internConstant _ }
  | constInt run =>
    obtain ⟨_, -, same⟩ := constInt_eq_ok run
    cases same
    exact { Keeps.refl p with constants := size_le_internConstant _ }
  | addGlobal _ run =>
    rw [(addGlobal_eq_ok run).2]
    exact { Keeps.refl p with }
  | setInitializer _ run =>
    obtain ⟨_, -, rfl⟩ := setInitializer_eq_ok run
    exact { Keeps.refl p with }
  | addFunction run => exact keeps_addFunction run
  | setArgName run => exact keeps_setArgName run
  | addBlock run => exact keeps_addBlock run
  | addInst _ _ _ run => exact keeps_addInst run
  | setOperands _ run =>
    obtain ⟨inst, there, rfl⟩ := setOperands_eq_ok run
    exact keeps_setInst there rfl rfl
  | setInstType _ run =>
    obtain ⟨inst, there, rfl⟩ := setInstType_eq_ok run
    exact keeps_setInst there rfl rfl

/-! ## What a function offers

Constants and texts belong to nobody.  An argument, a block and an instruction belong to one
function, which the program tells (`ownerOfInst` for instructions, by way of the block). -/

/-- What an instruction of a function may use: constants and texts, and the arguments, the blocks
and the named instructions of the function. -/
def Offers (program : Program) (func : FuncId) : Operand → Prop
  | .const id => id.index < program.constants.size
  | .arg id => ∃ arg, program.arg id = .ok arg ∧ arg.func = func
  | .inst id => program.ownerOfInst id = .ok func
      ∧ ∃ inst, program.inst id = .ok inst ∧ inst.name.isSome = true
  | .block id => ∃ block, program.block id = .ok block ∧ block.func = func
  | .text _ => True

/-- The owner of an instruction is the function of its block. -/
theorem ownerOfInst_eq_ok_iff {id : InstId} {func : FuncId} :
    program.ownerOfInst id = .ok func ↔ ∃ inst block, program.inst id = .ok inst
      ∧ program.block inst.block = .ok block ∧ block.func = func := by
  simp only [ownerOfInst, bind_eq_ok_iff, pure_eq_ok_iff]
  constructor
  · rintro ⟨inst, found, block, there, rfl⟩
    exact ⟨inst, block, found, there, rfl⟩
  · rintro ⟨inst, block, found, there, rfl⟩
    exact ⟨inst, found, block, there, rfl⟩

/-- What a function offers exists. -/
theorem Offers.inRange {func : FuncId} {operand : Operand} (offers : program.Offers func operand) :
    operand.InRange program := by
  cases operand with
  | const id => exact offers
  | arg id =>
    obtain ⟨arg, found, -⟩ := offers
    exact lt_size_of_arg found
  | inst id =>
    obtain ⟨-, inst, found, -⟩ := offers
    exact lt_size_of_inst found
  | block id =>
    obtain ⟨block, found, -⟩ := offers
    exact lt_size_of_block found
  | text => trivial

theorem Keeps.ownerOfInst (keeps : p.Keeps q) {id : InstId} {func : FuncId}
    (owned : p.ownerOfInst id = .ok func) : q.ownerOfInst id = .ok func := by
  obtain ⟨inst, block, found, there, rfl⟩ := ownerOfInst_eq_ok_iff.mp owned
  obtain ⟨later, found', -, same⟩ := keeps.inst found
  obtain ⟨entry, there', owner⟩ := keeps.block there
  exact ownerOfInst_eq_ok_iff.mpr ⟨later, entry, found', same ▸ there', owner⟩

/-- **What a function offers, it offers from then on.** -/
theorem Keeps.offers (keeps : p.Keeps q) {func : FuncId} {operand : Operand}
    (offers : p.Offers func operand) : q.Offers func operand := by
  cases operand with
  | const id => exact Nat.lt_of_lt_of_le offers keeps.constants
  | arg id =>
    obtain ⟨arg, found, rfl⟩ := offers
    exact keeps.arg found
  | inst id =>
    obtain ⟨owned, inst, found, named⟩ := offers
    obtain ⟨later, found', name, -⟩ := keeps.inst found
    exact ⟨keeps.ownerOfInst owned, later, found', name ▸ named⟩
  | block id =>
    obtain ⟨block, found, rfl⟩ := offers
    exact keeps.block found
  | text => trivial

theorem Keeps.typed (keeps : p.Keeps q) {constant : Constant} (typed : constant.Typed p) :
    constant.Typed q := by
  cases constant with
  | int type bits =>
    obtain ⟨width, found, narrow, small⟩ := typed
    exact ⟨width, keeps.types.shape_of_unnamed found rfl, narrow, small⟩
  | float type bits =>
    obtain ⟨kind, found⟩ := typed
    exact ⟨kind, keeps.types.shape_of_unnamed found rfl⟩
  | _ => trivial

/-! ## Drafts

The two conditions of `Draft.proceeds` are the ones that depend on what the loader asked for.  After
the general lemma there is one for every operation that the loader calls. -/

/-- A program that is being loaded. -/
structure Draft (program : Program) : Prop where
  /-- Everything in it was made by operations. -/
  built : program.Built
  /-- Constants have types of their kind. -/
  typed : ∀ {id constant}, program.constant id = .ok constant → constant.Typed program
  /-- An instruction uses nothing that belongs to another function. -/
  offers : ∀ {id inst func}, program.inst id = .ok inst → program.ownerOfInst id = .ok func →
    ∀ operand ∈ inst.operands, program.Offers func operand

/-- Loading goes on. -/
structure Proceeds (p q : Program) : Prop where
  draft : q.Draft
  keeps : p.Keeps q

theorem Draft.proper (draft : program.Draft) {id : ConstId} {constant : Constant}
    (found : program.constant id = .ok constant) : constant.Proper program :=
  (draft.typed found).proper

/-- A program with nothing in it is a draft. -/
theorem Draft.empty (layout : DataLayout) : (Program.empty layout).Draft where
  built := .empty layout
  typed found := by simp [constant_eq_ok_iff, Program.empty, Constants.empty] at found
  offers found := by simp [inst_eq_ok_iff, Program.empty] at found

theorem Draft.ptr (draft : p.Draft) : p.types.Has .ptr :=
  draft.built.consistent.2

theorem Draft.refl (draft : p.Draft) : p.Proceeds p :=
  ⟨draft, .refl p⟩

theorem Proceeds.trans (first : p.Proceeds q) (second : q.Proceeds r) : p.Proceeds r :=
  ⟨second.draft, first.keeps.trans second.keeps⟩

theorem Proceeds.has (proceeds : p.Proceeds q) {id : TypeId} (has : p.types.Has id) :
    q.types.Has id :=
  proceeds.keeps.types.has has

/-- In a built program every instruction has an owner. -/
theorem Built.exists_owner (built : program.Built) {id : InstId} {inst : Inst}
    (found : program.inst id = .ok inst) : ∃ func, program.ownerOfInst id = .ok func := by
  obtain ⟨block, there, -⟩ := built.rooted.inst found
  exact ⟨block.func, ownerOfInst_eq_ok_iff.mpr ⟨inst, block, found, there, rfl⟩⟩

/-- **An operation preserves a draft** if the constants that it adds have types of their kind, and
the operands that it sets are offered. -/
theorem Draft.proceeds (draft : p.Draft) (step : Step p q)
    (typed : ∀ {id constant}, q.constant id = .ok constant →
      p.constant id = .ok constant ∨ constant.Typed q)
    (offered : ∀ {id inst}, q.inst id = .ok inst →
      (∃ old, p.inst id = .ok old ∧ inst.operands = old.operands)
        ∨ ∀ {func}, q.ownerOfInst id = .ok func →
          ∀ operand ∈ inst.operands, q.Offers func operand) :
    p.Proceeds q := by
  have keeps := step.keeps draft.ptr
  refine ⟨⟨draft.built.step step, fun found => ?_, fun {id inst func} found owned => ?_⟩, keeps⟩
  · rcases typed found with old | new
    · exact keeps.typed (draft.typed old)
    · exact new
  · rcases offered found with ⟨old, there, same⟩ | new
    · obtain ⟨owner, before⟩ := draft.built.exists_owner there
      cases (keeps.ownerOfInst before).symm.trans owned
      rw [same]
      exact fun operand mem => keeps.offers (draft.offers there before operand mem)
    · exact new owned

namespace Draft

variable (draft : p.Draft)
include draft

theorem proceeds_types {types : Types} (step : Types.Step p.types types) :
    p.Proceeds { p with types } :=
  draft.proceeds (.types step) .inl fun found => .inl ⟨_, found, rfl⟩

theorem proceeds_internConstant {constant : Constant} (inRange : constant.InRange p)
    (typed : constant.Typed p) : p.Proceeds (p.internConstant constant).2 := by
  have step := Step.internConstant inRange
  refine draft.proceeds step (fun found => ?_) fun found => .inl ⟨_, found, rfl⟩
  rcases Constants.constant_of_constant_intern found with old | ⟨-, -, -, rfl⟩
  · exact .inl old
  · exact .inr ((step.keeps draft.ptr).typed typed)

omit draft in
theorem lt_size_internConstant (constant : Constant) :
    (p.internConstant constant).1.index < (p.internConstant constant).2.constants.size :=
  Constants.lt_size_of_constant Constants.constant_intern

/-- Integers that are cut to the width of their type are proper. -/
theorem proceeds_constInt {type : TypeId} {value : Int} {id : ConstId}
    (run : p.constInt type value = .ok (id, q)) :
    p.Proceeds q ∧ id.index < q.constants.size := by
  simp only [constInt, bind_eq_ok_iff, dangling_eq_ok_iff] at run
  obtain ⟨shape, found, run⟩ := run
  split at run
  · next bits =>
    split at run
    · simp at run
    · next narrow =>
      cases run
      refine ⟨draft.proceeds_internConstant (Types.has_of_shape found) ?_,
        lt_size_internConstant _⟩
      exact ⟨bits, found, Nat.le_of_not_lt narrow, toNat_truncate_lt _ _⟩
  · simp at run

theorem proceeds_addGlobal {name : String} {type : TypeId} {threadLocal : Bool} {id : GlobalId}
    (inRange : p.types.Has type) (run : p.addGlobal name type threadLocal = .ok (id, q)) :
    p.Proceeds q := by
  have step := Step.addGlobal inRange run
  rw [(addGlobal_eq_ok run).2] at step ⊢
  exact draft.proceeds step .inl fun found => .inl ⟨_, found, rfl⟩

theorem proceeds_setInitializer {id : GlobalId} {init : ConstId}
    (inRange : init.index < p.constants.size) (run : p.setInitializer id init = .ok q) :
    p.Proceeds q := by
  have step := Step.setInitializer inRange run
  obtain ⟨_, -, rfl⟩ := setInitializer_eq_ok run
  exact draft.proceeds step .inl fun found => .inl ⟨_, found, rfl⟩

theorem proceeds_addFunction {name : String} {type : TypeId} {id : FuncId}
    (run : p.addFunction name type = .ok (id, q)) : p.Proceeds q := by
  have step := Step.addFunction run
  obtain ⟨_, _, _, -, -, rfl⟩ := addFunction_eq_ok run
  exact draft.proceeds step .inl fun found => .inl ⟨_, found, rfl⟩

theorem proceeds_setArgName {id : ArgId} {name : String} (run : p.setArgName id name = .ok q) :
    p.Proceeds q := by
  have step := Step.setArgName run
  obtain ⟨_, -, rfl⟩ := setArgName_eq_ok run
  exact draft.proceeds step .inl fun found => .inl ⟨_, found, rfl⟩

theorem proceeds_addBlock {func : FuncId} {label : Option String} {id : BlockId}
    (run : p.addBlock func label = .ok (id, q)) : p.Proceeds q := by
  have step := Step.addBlock run
  obtain ⟨_, -, -, rfl⟩ := addBlock_eq_ok run
  exact draft.proceeds step .inl fun found => .inl ⟨_, found, rfl⟩

/-- A new instruction has no operands yet. -/
theorem proceeds_addInst {block : BlockId} {kind : InstKind} {type : TypeId}
    {name : Option String} {id : InstId} (kindInRange : kind.InRange p)
    (typeInRange : p.types.Has type) (run : p.addInst block kind type [] name = .ok (id, q)) :
    p.Proceeds q := by
  have step := Step.addInst kindInRange typeInRange (List.forall_mem_nil _) run
  obtain ⟨_, -, -, rfl⟩ := addInst_eq_ok run
  refine draft.proceeds step .inl fun found => ?_
  rcases getElem?_push_eq_some (inst_eq_ok_iff.mp found) with ⟨-, rfl⟩ | old
  · exact .inr fun _ => List.forall_mem_nil _
  · exact .inl ⟨_, inst_eq_ok_iff.mpr old, rfl⟩

theorem proceeds_setInstType {id : InstId} {type : TypeId} (inRange : p.types.Has type)
    (run : p.setInstType id type = .ok q) : p.Proceeds q := by
  have step := Step.setInstType inRange run
  obtain ⟨inst, there, rfl⟩ := setInstType_eq_ok run
  refine draft.proceeds step .inl fun {other entry} found => ?_
  rcases getElem?_set_eq_some (inst_eq_ok_iff.mp there) (inst_eq_ok_iff.mp found) with
    ⟨index, rfl⟩ | ⟨-, kept⟩
  · exact .inl ⟨inst, InstId.ext index ▸ there, rfl⟩
  · exact .inl ⟨entry, inst_eq_ok_iff.mpr kept, rfl⟩

/-- The operands of an instruction may be set to what its function offers. -/
theorem proceeds_setOperands {id : InstId} {func : FuncId} {operands : List Operand}
    (owned : p.ownerOfInst id = .ok func) (offered : ∀ operand ∈ operands, p.Offers func operand)
    (run : p.setOperands id operands = .ok q) : p.Proceeds q := by
  have step := Step.setOperands (fun operand mem => (offered operand mem).inRange) run
  have keeps := step.keeps draft.ptr
  obtain ⟨inst, there, rfl⟩ := setOperands_eq_ok run
  refine draft.proceeds step .inl fun {other entry} found => ?_
  rcases getElem?_set_eq_some (inst_eq_ok_iff.mp there) (inst_eq_ok_iff.mp found) with
    ⟨index, rfl⟩ | ⟨-, kept⟩
  · refine .inr fun owned' operand mem => ?_
    obtain rfl : other = id := InstId.ext index
    cases (keeps.ownerOfInst owned).symm.trans owned'
    exact keeps.offers (offered operand mem)
  · exact .inl ⟨entry, inst_eq_ok_iff.mpr kept, rfl⟩

end Draft

/-! ## Names of results

An instruction with a name is entered before its type is known, with void in place of the type.  The
list `unfinished` holds the instructions for which that is still so; it is empty behind the last
phase of a function. -/

/-- Instructions with a name have a result, but for those that are not finished. -/
def NamesResults (program : Program) (unfinished : List InstId) : Prop :=
  ∀ ⦃id inst⦄, program.inst id = .ok inst → inst.name.isSome = true → id ∉ unfinished →
    program.types.isVoid inst.type = .ok false

/-- Instructions that stay as they are keep their results. -/
theorem NamesResults.of_kept {unfinished later : List InstId} (names : p.NamesResults unfinished)
    (types : p.types.Extends q.types) (kept : ∀ {id inst}, q.inst id = .ok inst → id ∉ later →
      p.inst id = .ok inst ∧ id ∉ unfinished) : q.NamesResults later := by
  intro id inst found named finished
  obtain ⟨there, before⟩ := kept found finished
  exact types.isVoid (names there named before)

end Program

end IrStream
