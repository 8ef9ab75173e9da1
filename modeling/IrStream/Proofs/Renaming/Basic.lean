import IrStream.Proofs.Pairing.Lookup
import IrStream.Proofs.Program.Closed
import IrStream.Proofs.Program.Layered
import IrStream.Proofs.Program.Text
import Mathlib.Data.Set.Function

/-!
# Other handles for the same program

A `Renaming` gives other handles to types, constants and globals.  A program is another one renamed
(`Program.Renamed`) if it has every entry of the other one under its new handle, with the handles
inside it renamed as well.  It may have any further types, constants and globals, in any order.

Most of what is said here needs less: that the other program has all those entries, whatever else it
has (`Program.Embedded`).  A renaming need not be injective beyond the handles that the program has.
So it is said of handles in range, and everything that a built program refers to is.

Renaming is defined on every sort of entry, by going through the handles in it and leaving
everything else as it is.  Functions, blocks, arguments and instructions keep their handles: their
order is the order of the stream, and a program with another order is another program.

What is to be shown of renamed programs is not shown here.  A renaming relates each handle in range
to its image (`Renaming.pairing`), under that pairing an entry is like the renamed one
(`TypeShape.alike_rename` and its like), and so the two programs are alike (`Embedded.alike`), which
is all that the modules on pairings ask for.  Two facts carry the proof.  Handles that are stored in
a built program are in range, so nothing escapes the pairing; and the renaming is injective there,
so no handle is related to two.

## Statements

* `Renamed.embedded`: a renamed program is embedded, with what may be there besides.
* `Embedded.alike`: **a program is like what has its entries under other handles.**
* `Renaming.exact_pairing`: instructions keep their handles, so texts are equal as well.
-/

set_option autoImplicit false

namespace IrStream

/-- Other handles. -/
structure Renaming where
  /-- The new handle of a type. -/
  type : TypeId → TypeId
  /-- The new handle of a constant. -/
  constant : ConstId → ConstId
  /-- The new handle of a global. -/
  global : GlobalId → GlobalId

/-! ## Renamed entries -/

def TypeShape.rename (ρ : Renaming) : TypeShape → TypeShape
  | func params ret vararg => func (params.map ρ.type) (ρ.type ret) vararg
  | struct shape => struct { shape with fields := shape.fields.map ρ.type }
  | array elem length => array (ρ.type elem) length
  | shape => shape

def Constant.rename (ρ : Renaming) : Constant → Constant
  | int type bits => int (ρ.type type) bits
  | float type bits => float (ρ.type type) bits
  | null type => null (ρ.type type)
  | undef type => undef (ρ.type type)
  | aggregate type elems => aggregate (ρ.type type) (elems.map ρ.constant)
  | global id => global (ρ.global id)
  | function id => function id

def Operand.rename (ρ : Renaming) : Operand → Operand
  | const id => const (ρ.constant id)
  | arg id => arg id
  | inst id => inst id
  | block id => block id
  | text shown => text shown

def InstKind.rename (ρ : Renaming) : InstKind → InstKind
  | alloca allocated => alloca (ρ.type allocated)
  | getElementPtr source => getElementPtr (ρ.type source)
  | kind => kind

def Inst.rename (ρ : Renaming) (inst : Inst) : Inst :=
  { inst with
    kind := inst.kind.rename ρ
    type := ρ.type inst.type
    operands := inst.operands.map (·.rename ρ) }

def Function.rename (ρ : Renaming) (function : Function) : Function :=
  { function with type := ρ.type function.type }

def Arg.rename (ρ : Renaming) (arg : Arg) : Arg :=
  { arg with type := ρ.type arg.type }

def Global.rename (ρ : Renaming) (global : Global) : Global :=
  { global with
    type := ρ.type global.type
    init := global.init.map ρ.constant }

/-- The second program is the first one with other handles, and maybe with more types, constants and
globals. -/
structure Program.Renamed (ρ : Renaming) (program other : Program) : Prop where
  /-- No two types of the program get the same handle. -/
  typeInj : Set.InjOn ρ.type {id | program.types.Has id}
  /-- No two constants of the program get the same handle. -/
  constantInj : Set.InjOn ρ.constant {id | id.index < program.constants.size}
  /-- No two globals of the program get the same handle. -/
  globalInj : Set.InjOn ρ.global {id | id.index < program.globals.size}
  /-- The types that every arena begins with keep their handles. -/
  basic : ∀ {id : TypeId}, id.index ≤ 5 → ρ.type id = id
  /-- Sizes are computed for the same target. -/
  layout : other.layout = program.layout
  /-- Each type is there under its new handle, made of new handles. -/
  shape : ∀ {id shape}, program.types.shape id = .ok shape →
    other.types.shape (ρ.type id) = .ok (shape.rename ρ)
  /-- Each constant is there under its new handle. -/
  constant : ∀ {id constant}, program.constant id = .ok constant →
    other.constant (ρ.constant id) = .ok (constant.rename ρ)
  /-- Each global is there under its new handle. -/
  global : ∀ {id global}, program.global id = .ok global →
    other.global (ρ.global id) = .ok (global.rename ρ)
  /-- Functions keep their handles, and there are no others. -/
  functions : other.functions = program.functions.map (·.rename ρ)
  /-- Arguments keep their handles, and their types are renamed. -/
  args : other.args = program.args.map (·.rename ρ)
  /-- Blocks have no handles of these sorts in them. -/
  blocks : other.blocks = program.blocks
  /-- Instructions keep their handles, and what they mention is renamed. -/
  insts : other.insts = program.insts.map (·.rename ρ)

/-- The second program has every entry of the first one under its other handle, and maybe more
entries of every kind. -/
structure Program.Embedded (ρ : Renaming) (program other : Program) : Prop where
  /-- No two types of the program get the same handle. -/
  typeInj : Set.InjOn ρ.type {id | program.types.Has id}
  /-- No two constants of the program get the same handle. -/
  constantInj : Set.InjOn ρ.constant {id | id.index < program.constants.size}
  /-- No two globals of the program get the same handle. -/
  globalInj : Set.InjOn ρ.global {id | id.index < program.globals.size}
  /-- The types that every arena begins with keep their handles. -/
  basic : ∀ {id : TypeId}, id.index ≤ 5 → ρ.type id = id
  /-- Sizes are computed for the same target. -/
  layout : other.layout = program.layout
  /-- Each type is there under its new handle, made of new handles. -/
  shape : ∀ {id shape}, program.types.shape id = .ok shape →
    other.types.shape (ρ.type id) = .ok (shape.rename ρ)
  /-- Each constant is there under its new handle. -/
  constant : ∀ {id constant}, program.constant id = .ok constant →
    other.constant (ρ.constant id) = .ok (constant.rename ρ)
  /-- Each global is there under its new handle. -/
  global : ∀ {id global}, program.global id = .ok global →
    other.global (ρ.global id) = .ok (global.rename ρ)
  /-- Each function is there under its own handle. -/
  function : ∀ {id function}, program.function id = .ok function →
    other.function id = .ok (function.rename ρ)
  /-- Each argument is there under its own handle. -/
  arg : ∀ {id arg}, program.arg id = .ok arg → other.arg id = .ok (arg.rename ρ)
  /-- Each block is there under its own handle. -/
  block : ∀ {id block}, program.block id = .ok block → other.block id = .ok block
  /-- Each instruction is there under its own handle. -/
  inst : ∀ {id inst}, program.inst id = .ok inst → other.inst id = .ok (inst.rename ρ)

/-! ## What a renaming pairs -/

/-- The pairing of what is in the program with the same under the other handles. -/
def Renaming.pairing (ρ : Renaming) (program : Program) : Pairing where
  type id other := program.types.Has id ∧ other = ρ.type id
  constant id other := id.index < program.constants.size ∧ other = ρ.constant id
  global id other := id.index < program.globals.size ∧ other = ρ.global id
  function id := id.index < program.functions.size
  block id := id.index < program.blocks.size
  arg id := id.index < program.args.size
  inst id other := id.index < program.insts.size ∧ other = id
  value id other := id.index < program.insts.size ∧ other = id
  dropped _ := False

theorem forall₂_map_of_mem {α β : Type} {R : α → β → Prop} {f : α → β} {as : List α}
    (related : ∀ a ∈ as, R a (f a)) : List.Forall₂ R as (as.map f) :=
  List.forall₂_map_right_iff.mpr (List.forall₂_same.mpr related)

/-- The handles that a renaming gives are related to the old ones one by one, if it gives none
twice. -/
theorem biUnique_of_injOn {α : Type} {f : α → α} {s : Set α} (inj : Set.InjOn f s) :
    Relator.BiUnique fun a b => a ∈ s ∧ b = f a := by
  refine ⟨?_, ?_⟩
  · rintro a _ again ⟨inside, rfl⟩ ⟨inside', same⟩
    exact inj inside inside' same
  · rintro a _ _ ⟨-, rfl⟩ ⟨-, rfl⟩
    rfl

section

variable (ρ : Renaming) {program : Program}

theorem Renaming.exact_pairing : (ρ.pairing program).Exact :=
  ⟨And.right, id⟩

/-- What a renamed shape contains, one by one. -/
theorem TypeShape.alike_rename {shape : TypeShape}
    (parts : ∀ child ∈ shape.children, program.types.Has child) :
    shape.Alike (ρ.pairing program).type (shape.rename ρ) := by
  have each {ids : List TypeId} (known : ∀ id ∈ ids, program.types.Has id) :
      List.Forall₂ (ρ.pairing program).type ids (ids.map ρ.type) :=
    forall₂_map_of_mem fun id mem => ⟨known id mem, rfl⟩
  cases shape with
  | void => exact .void
  | int bits => exact .int bits
  | ptr addrSpace => exact .ptr addrSpace
  | float kind => exact .float kind
  | func params ret vararg =>
    obtain ⟨result, parameters⟩ := List.forall_mem_cons.mp parts
    exact .func vararg (each parameters) ⟨result, rfl⟩
  | struct shape => exact .struct _ _ _ (each parts)
  | array elem length => exact .array length ⟨parts elem List.mem_cons_self, rfl⟩

/-- A constant in range is like the renamed one. -/
theorem Constant.alike_rename {constant : Constant} (inRange : constant.InRange program) :
    constant.Alike (ρ.pairing program) (constant.rename ρ) := by
  cases constant with
  | int type bits => exact .int bits ⟨inRange, rfl⟩
  | float type bits => exact .float bits ⟨inRange, rfl⟩
  | null type => exact .null ⟨inRange, rfl⟩
  | undef type => exact .undef ⟨inRange, rfl⟩
  | aggregate type elems =>
    exact .aggregate ⟨inRange.1, rfl⟩ (forall₂_map_of_mem fun elem mem => ⟨inRange.2 elem mem, rfl⟩)
  | global id => exact .global ⟨inRange, rfl⟩
  | function id => exact .function inRange

theorem Operand.alike_rename {operand : Operand} (inRange : operand.InRange program) :
    operand.Alike (ρ.pairing program) (operand.rename ρ) := by
  cases operand with
  | const id => exact .const ⟨inRange, rfl⟩
  | arg id => exact .arg inRange
  | inst id => exact .inst ⟨inRange, rfl⟩
  | block id => exact .block inRange
  | text text => exact .text text

/-- An instruction is like the renamed one if what it refers to is in range. -/
theorem Inst.alike_rename {inst : Inst} (result : program.types.Has inst.type)
    (kind : inst.kind.InRange program)
    (inRange : ∀ operand ∈ inst.operands, operand.InRange program) :
    inst.Alike (ρ.pairing program) (inst.rename ρ) where
  kind := by
    dsimp only [Inst.rename]
    generalize inst.kind = kinds at kind
    cases kinds with
    | alloca allocated => exact .alloca ⟨kind, rfl⟩
    | getElementPtr source => exact .getElementPtr ⟨kind, rfl⟩
    | _ => exact .plain rfl
  type := ⟨result, rfl⟩
  operands := forall₂_map_of_mem fun operand mem => operand.alike_rename ρ (inRange operand mem)
  name := rfl
  block := rfl

/-- A global is like the renamed one, and so is its initializer if it has one. -/
theorem Global.alike_rename {global : Global} (type : program.types.Has global.type)
    (inRange : ∀ init, global.init = some init → init.index < program.constants.size) :
    global.Alike (ρ.pairing program) (global.rename ρ) where
  name := rfl
  type := ⟨type, rfl⟩
  threadLocal := rfl
  init := by
    dsimp only [Global.rename]
    cases isInit : global.init with
    | none => exact .none
    | some init => exact .some ⟨inRange init isInit, rfl⟩

/-- A block has the same instructions again. -/
theorem Block.alike_refl {block : Block}
    (listed : ∀ id ∈ block.insts, id.index < program.insts.size) :
    block.Alike (ρ.pairing program) block where
  func := rfl
  label := rfl
  insts := by
    generalize block.insts = ids at listed
    induction ids with
    | nil => exact .nil
    | cons id ids ih =>
      obtain ⟨here, others⟩ := List.forall_mem_cons.mp listed
      exact .keep ⟨here, rfl⟩ (ih others)

end

/-! ## Renamed programs -/

namespace Program

variable {ρ : Renaming} {program other : Program}

theorem resolve_map {α β : Type} (f : α → β) (arena : Array α) (index : Nat) (dangling : Dangling) :
    resolve (arena.map f) index dangling = (resolve arena index dangling).map f := by
  rw [resolve, resolve, Array.getElem?_map]
  cases arena[index]? <;> rfl

/-- A renaming is an embedding: it is injective, and every entry has its counterpart. -/
theorem Renamed.embedded (renamed : program.Renamed ρ other) : program.Embedded ρ other where
  typeInj := renamed.typeInj
  constantInj := renamed.constantInj
  globalInj := renamed.globalInj
  basic := renamed.basic
  layout := renamed.layout
  shape := renamed.shape
  constant := renamed.constant
  global := renamed.global
  function {id function} found := by
    rw [Program.function, renamed.functions, resolve_map, ← Program.function, found]
    rfl
  arg {id arg} found := by
    rw [Program.arg, renamed.args, resolve_map, ← Program.arg, found]
    rfl
  block {id block} found := by rwa [Program.block, renamed.blocks]
  inst {id inst} found := by
    rw [Program.inst, renamed.insts, resolve_map, ← Program.inst, found]
    rfl

theorem has_basic (built : program.Built) {id : TypeId} (basic : id.index ≤ 5) :
    program.types.Has id := by
  obtain ⟨shape, found⟩ := @Types.Has.exists_shape .initial id (Nat.lt_succ_of_le basic)
  exact Types.has_of_shape (built.types.regular.basic found)

namespace Embedded

variable (embedded : program.Embedded ρ other) (built : program.Built)
include embedded built

theorem embeds_types : program.types.Embeds (ρ.pairing program).type other.types where
  shape := by
    rintro id _ ⟨has, rfl⟩
    obtain ⟨shape, found⟩ := has.exists_shape
    exact ⟨shape, _, found, embedded.shape found, shape.alike_rename ρ (built.closed.type found)⟩
  right := (biUnique_of_injOn embedded.typeInj).2
  left := (biUnique_of_injOn embedded.typeInj).1
  total has := ⟨_, has, rfl⟩
  layered := built.types.regular.layered

theorem embeds_constants : program.constants.Embeds (ρ.pairing program) other.constants where
  constant := by
    rintro id _ ⟨bound, rfl⟩
    obtain ⟨constant, found⟩ := exists_constant bound
    exact ⟨constant, _, found, embedded.constant found,
      constant.alike_rename ρ (built.closed.constant found)⟩
  right := (biUnique_of_injOn embedded.constantInj).2
  left := (biUnique_of_injOn embedded.constantInj).1
  total bound := ⟨_, bound, rfl⟩
  layered := built.constants

/-- **A program is like what has its entries under other handles.**  Whatever is paired is in the
program, so no look-up fails, and what it answers refers to the program again, since built programs
are closed. -/
theorem alike : program.Alike (ρ.pairing program) other where
  layout := embedded.layout
  basic basic := ⟨has_basic built basic, (embedded.basic basic).symm⟩
  types := embedded.embeds_types built
  constants := embedded.embeds_constants built
  biUnique_global := biUnique_of_injOn embedded.globalInj
  biUnique_inst := biUnique_of_injOn Function.injective_id.injOn
  global := by
    rintro id _ ⟨bound, rfl⟩
    obtain ⟨global, found⟩ := exists_global bound
    obtain ⟨type, init⟩ := built.closed.global found
    rw [found, embedded.global found]
    exact .ok (global.alike_rename ρ type init)
  function {id} bound := by
    obtain ⟨function, found⟩ := exists_function bound
    rw [found, embedded.function found]
    exact .ok ⟨rfl, ⟨(built.closed.function found).1, rfl⟩, rfl, rfl⟩
  block {id} bound := by
    obtain ⟨block, found⟩ := exists_block bound
    rw [found, embedded.block found]
    exact .ok (block.alike_refl ρ (built.closed.block found).2)
  arg {id} bound := by
    obtain ⟨arg, found⟩ := exists_arg bound
    rw [found, embedded.arg found]
    exact .ok ⟨rfl, rfl, ⟨(built.closed.arg found).2, rfl⟩, rfl⟩
  inst := by
    rintro id _ ⟨bound, rfl⟩
    obtain ⟨inst, found⟩ := exists_inst bound
    obtain ⟨kind, result, operands, -⟩ := built.closed.inst found
    exact ⟨inst, _, found, embedded.inst found, inst.alike_rename ρ result kind operands⟩
  value related := ⟨related, fun _ => .inr related.2⟩
  dropped := False.elim
  listed _ found := (built.closed.function found).2.2
  owner _ found := (built.closed.block found).1

end Embedded

end Program

end IrStream
