import IrStream.Program.Basic
import IrStream.Proofs.Types.Built

/-!
# Programs as they are built

`Program.Step` is one public operation on a program, called with handles that the program gave out,
and `Program.Built` are the programs such operations make of an empty one.  An operation that fails
makes no program and is no step.

For each operation there is a lemma that says what a call that succeeds has done (`addBlock_eq_ok`
and its like).  `Program.addOne` is a small program that is built.

Almost everything in this development is said of built programs.  The type of programs has many
values that no sequence of operations makes: a block that lists an instruction of another one, two
functions of one name, an aggregate that contains itself.  They can be written down, and nothing
that is shown here is true of them.

`Step` has one constructor for each operation, and it is the only place where it is said what may be
done to a program.  An invariant is shown by cases on it, once for each operation, and holds then of
all built programs by induction.  The hypotheses of a constructor are what a caller has to see to,
namely that the handles are handles of this program; whether an operation then succeeds is its own
business.

The lemmas `…_eq_ok` take an operation apart: from a call that succeeded they get the checks that
were passed, the new entries, and the program behind, as an equation.  No other module unfolds an
operation.
-/

set_option autoImplicit false

namespace IrStream

/-! ## Handles the program gave out

What may be stored in a program refers to it.  For each sort of entity that has handles in it, this
is a proposition that can be decided. -/

def Operand.InRange (program : Program) : Operand → Prop
  | .const id => id.index < program.constants.size
  | .arg id => id.index < program.args.size
  | .inst id => id.index < program.insts.size
  | .block id => id.index < program.blocks.size
  | .text _ => True

instance (program : Program) : (operand : Operand) → Decidable (operand.InRange program)
  | .const id => inferInstanceAs (Decidable (id.index < program.constants.size))
  | .arg id => inferInstanceAs (Decidable (id.index < program.args.size))
  | .inst id => inferInstanceAs (Decidable (id.index < program.insts.size))
  | .block id => inferInstanceAs (Decidable (id.index < program.blocks.size))
  | .text _ => inferInstanceAs (Decidable True)

def Constant.InRange (program : Program) : Constant → Prop
  | .int type _ => program.types.Has type
  | .float type _ => program.types.Has type
  | .null type => program.types.Has type
  | .undef type => program.types.Has type
  | .aggregate type elems =>
    program.types.Has type ∧ ∀ elem ∈ elems, elem.index < program.constants.size
  | .global id => id.index < program.globals.size
  | .function id => id.index < program.functions.size

def InstKind.InRange (program : Program) : InstKind → Prop
  | .alloca allocated => program.types.Has allocated
  | .getElementPtr source => program.types.Has source
  | _ => True

namespace Program

/-- A public operation on a program.  The constants that hold the addresses of globals and functions
are interned like any other. -/
inductive Step : Program → Program → Prop
  /-- The layout may be replaced at any time. -/
  | setLayout (program : Program) (layout : DataLayout) : Step program { program with layout }
  /-- An operation on the types. -/
  | types {program : Program} {types : Types} (step : Types.Step program.types types) :
      Step program { program with types }
  /-- A constant is interned whose parts are there. -/
  | internConstant {program : Program} {constant : Constant} (inRange : constant.InRange program) :
      Step program (program.internConstant constant).2
  /-- An integer constant is made, and its value cut to the width of its type. -/
  | constInt {program after : Program} {type : TypeId} {value : Int} {id : ConstId}
      (run : program.constInt type value = .ok (id, after)) : Step program after
  /-- A global is added under a name that is free. -/
  | addGlobal {program after : Program} {name : String} {type : TypeId} {threadLocal : Bool}
      {id : GlobalId} (inRange : program.types.Has type)
      (run : program.addGlobal name type threadLocal = .ok (id, after)) : Step program after
  /-- A global gets an initializer, in place of the one it may have. -/
  | setInitializer {program after : Program} {id : GlobalId} {init : ConstId}
      (inRange : init.index < program.constants.size)
      (run : program.setInitializer id init = .ok after) : Step program after
  /-- A function is added under a name that is free, with its arguments. -/
  | addFunction {program after : Program} {name : String} {type : TypeId} {id : FuncId}
      (run : program.addFunction name type = .ok (id, after)) : Step program after
  /-- An argument gets a name. -/
  | setArgName {program after : Program} {id : ArgId} {name : String}
      (run : program.setArgName id name = .ok after) : Step program after
  /-- A block is added at the end of a function. -/
  | addBlock {program after : Program} {func : FuncId} {label : Option String} {id : BlockId}
      (run : program.addBlock func label = .ok (id, after)) : Step program after
  /-- An instruction is added at the end of a block. -/
  | addInst {program after : Program} {block : BlockId} {kind : InstKind} {type : TypeId}
      {operands : List Operand} {name : Option String} {id : InstId}
      (kindInRange : kind.InRange program) (typeInRange : program.types.Has type)
      (inRange : ∀ operand ∈ operands, operand.InRange program)
      (run : program.addInst block kind type operands name = .ok (id, after)) : Step program after
  /-- The operands of an instruction are replaced. -/
  | setOperands {program after : Program} {id : InstId} {operands : List Operand}
      (inRange : ∀ operand ∈ operands, operand.InRange program)
      (run : program.setOperands id operands = .ok after) : Step program after
  /-- The result type of an instruction is replaced. -/
  | setInstType {program after : Program} {id : InstId} {type : TypeId}
      (inRange : program.types.Has type)
      (run : program.setInstType id type = .ok after) : Step program after

/-- The programs that public operations make of an empty one. -/
inductive Built : Program → Prop
  | empty (layout : DataLayout) : Built (.empty layout)
  | step {program after : Program} (built : Built program) (step : Step program after) : Built after

/-! ## What the operations do -/

variable {program after : Program}

/-- An integer is made if its type is an integer type; the value is cut to the width and interned.
-/
theorem constInt_eq_ok {type : TypeId} {value : Int} {id : ConstId}
    (run : program.constInt type value = .ok (id, after)) :
    ∃ bits, program.types.shape type = .ok (.int bits) ∧ program.internConstant
      (.int type (truncate (BitVec.ofInt 128 value) bits.toNat)) = (id, after) := by
  simp only [constInt, bind_eq_ok_iff, dangling_eq_ok_iff] at run
  obtain ⟨shape, found, run⟩ := run
  split at run
  · next bits =>
    split at run
    · simp at run
    · exact ⟨bits, found, (pure_eq_ok_iff.mp run).symm⟩
  · simp at run

theorem addGlobal_eq_ok {name : String} {type : TypeId} {threadLocal : Bool} {id : GlobalId}
    (run : program.addGlobal name type threadLocal = .ok (id, after)) :
    id = ⟨program.globals.size⟩ ∧ after = { program with
      globals := program.globals.push ⟨name, type, threadLocal, none⟩ } := by
  rw [addGlobal] at run
  split at run
  · simp at run
  · cases run
    exact ⟨rfl, rfl⟩

theorem setInitializer_eq_ok {id : GlobalId} {init : ConstId}
    (run : program.setInitializer id init = .ok after) :
    ∃ global, program.global id = .ok global ∧ after = { program with
      globals := program.globals.setIfInBounds id.index { global with init := some init } } := by
  simp only [setInitializer, bind_eq_ok_iff, pure_eq_ok_iff] at run
  exact run

/-- A function is added with one unnamed argument for each parameter of its type. -/
theorem addFunction_eq_ok {name : String} {type : TypeId} {id : FuncId}
    (run : program.addFunction name type = .ok (id, after)) :
    ∃ params ret vararg, program.types.shape type = .ok (.func params ret vararg)
      ∧ id = ⟨program.functions.size⟩ ∧ after = { program with
        args := program.args
          ++ (params.mapIdx fun number type =>
            (⟨⟨program.functions.size⟩, number, type, none⟩ : Arg)).toArray
        functions := program.functions.push ⟨name, type,
          params.mapIdx fun number _ => ⟨program.args.size + number⟩, []⟩ } := by
  simp only [addFunction, bind_eq_ok_iff, dangling_eq_ok_iff] at run
  obtain ⟨shape, found, run⟩ := run
  split at run
  · split at run
    · simp at run
    · cases run
      exact ⟨_, _, _, found, rfl, rfl⟩
  · simp at run

theorem setArgName_eq_ok {id : ArgId} {name : String}
    (run : program.setArgName id name = .ok after) :
    ∃ arg, program.arg id = .ok arg ∧ after = { program with
      args := program.args.setIfInBounds id.index { arg with name := some name } } := by
  simp only [setArgName, bind_eq_ok_iff, pure_eq_ok_iff] at run
  exact run

/-- A block is pushed without instructions, and its function lists it last. -/
theorem addBlock_eq_ok {func : FuncId} {label : Option String} {id : BlockId}
    (run : program.addBlock func label = .ok (id, after)) :
    ∃ function, program.function func = .ok function ∧ id = ⟨program.blocks.size⟩
      ∧ after = { program with
      blocks := program.blocks.push ⟨func, label, []⟩
      functions := program.functions.setIfInBounds func.index
        { function with blocks := function.blocks ++ [⟨program.blocks.size⟩] } } := by
  simp only [addBlock, bind_eq_ok_iff, pure_eq_ok_iff] at run
  obtain ⟨function, found, same⟩ := run
  cases same
  exact ⟨function, found, rfl, rfl⟩

/-- An instruction is pushed, and its block lists it last. -/
theorem addInst_eq_ok {block : BlockId} {kind : InstKind} {type : TypeId}
    {operands : List Operand} {name : Option String} {id : InstId}
    (run : program.addInst block kind type operands name = .ok (id, after)) :
    ∃ owner, program.block block = .ok owner ∧ id = ⟨program.insts.size⟩ ∧ after = { program with
      insts := program.insts.push ⟨kind, type, operands, name, block⟩
      blocks := program.blocks.setIfInBounds block.index
        { owner with insts := owner.insts ++ [⟨program.insts.size⟩] } } := by
  simp only [addInst, bind_eq_ok_iff, pure_eq_ok_iff] at run
  obtain ⟨owner, found, same⟩ := run
  cases same
  exact ⟨owner, found, rfl, rfl⟩

theorem setOperands_eq_ok {id : InstId} {operands : List Operand}
    (run : program.setOperands id operands = .ok after) :
    ∃ inst, program.inst id = .ok inst ∧ after = { program with
      insts := program.insts.setIfInBounds id.index { inst with operands } } := by
  simp only [setOperands, bind_eq_ok_iff, pure_eq_ok_iff] at run
  exact run

theorem setInstType_eq_ok {id : InstId} {type : TypeId}
    (run : program.setInstType id type = .ok after) :
    ∃ inst, program.inst id = .ok inst ∧ after = { program with
      insts := program.insts.setIfInBounds id.index { inst with type } } := by
  simp only [setInstType, bind_eq_ok_iff, pure_eq_ok_iff] at run
  exact run

/-! ## A program -/

/-- A function that adds one to its argument. -/
def addOne : Program where
  layout := .standard
  types := ⟨#[.void, .int 1, .int 8, .int 32, .int 64, .ptr 0, .func [.i32] .i32 false]⟩
  constants := ⟨#[.int .i32 1]⟩
  globals := #[]
  functions := #[⟨"addOne", ⟨6⟩, [⟨0⟩], [⟨0⟩]⟩]
  blocks := #[⟨⟨0⟩, none, [⟨0⟩, ⟨1⟩]⟩]
  insts := #[
    ⟨.binary .add, .i32, [.arg ⟨0⟩, .const ⟨0⟩], none, ⟨0⟩⟩,
    ⟨.ret, .void, [.inst ⟨0⟩], none, ⟨0⟩⟩]
  args := #[⟨⟨0⟩, 0, .i32, none⟩]

/-- The operations that make it, one after the other. -/
theorem built_addOne : addOne.Built := by
  have types : (Types.initial.intern (.func [.i32] .i32 false)).2 = addOne.types := by
    decide +kernel
  have constants : (Constants.empty.intern (.int .i32 1)).2 = addOne.constants := by
    decide +kernel
  have typed := (Built.empty .standard).step (@Step.types _ addOne.types (by
    rw [← types]
    exact .intern _ (by decide +kernel)))
  have counted : Built { empty .standard with
      types := addOne.types, constants := addOne.constants } := by
    rw [← constants]
    exact typed.step (@Step.internConstant _ (.int .i32 1) (by
      show Types.Has _ _
      decide +kernel))
  have declared := counted.step (@Step.addFunction _
    { addOne with functions := #[⟨"addOne", ⟨6⟩, [⟨0⟩], []⟩], blocks := #[], insts := #[] }
    "addOne" ⟨6⟩ ⟨0⟩ (by with_unfolding_all rfl))
  have opened := declared.step (@Step.addBlock _ _ ⟨0⟩ none ⟨0⟩ rfl)
  have added := opened.step (@Step.addInst _ _ ⟨0⟩ (.binary .add) .i32 [.arg ⟨0⟩, .const ⟨0⟩] none
    ⟨0⟩ trivial (by decide +kernel) (by decide +kernel) rfl)
  exact added.step (@Step.addInst _ _ ⟨0⟩ .ret .void [.inst ⟨0⟩] none ⟨1⟩ trivial
    (by decide +kernel) (by decide +kernel) rfl)

end Program

end IrStream
