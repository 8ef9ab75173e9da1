import IrStream.Proofs.Program.Arranged
import IrStream.Proofs.Program.Layered
import IrStream.Proofs.Types.SameTerm
import Mathlib.Logic.Relator

/-!
# Programs that correspond

A `Correspondence` says which handles of two programs stand for the same thing.  What programs are
made of corresponds if it is the same up to the handles (`Constant.Corresponds`, `Inst.Corresponds`
and so on), and programs do if their entries under related handles do (`Program.Corresponds`).

Most of the handles need not be chosen.  A type stands for the one with the same term, a global or a
function for the one with the same name, an argument for the one with the same number, and a
constant for the one that is made of such types, globals and functions in the same way
(`Program.SameConst`).  Only blocks and instructions have nothing by which they could be told apart
from others, so `Program.matching` is given which of them stand for each other.

## Correspondences and pairings

A pairing (`Pairing/Basic.lean`) is for two programs that are built side by side: it grows with each
step, and handles of functions, blocks and arguments are the same on both sides.  Neither is so
here.  The entries of a document come in another order, so the handles of everything are different,
and two entries that stand for each other may be added at quite different times.

Therefore what corresponds is not kept in a relation that grows but is *read off* the two programs:
`SameGlobal`, `SameFunction`, `SameArg` and `SameConst` are definitions.  A pair is there as soon as
both halves are, without anyone adding it, and it stays (`matching_le`).  Blocks and instructions
are the exception; they are loaded by the same entry, one after the other on both sides, and
`Locals` remembers which.

Constants are the difficult ones.  A constant may have others in it, and these have to stand for
each other in turn.  `SameConst` is a recursion on both at once, with a bound for the depth that is
the number of constants, which is enough since parts are stored first.
-/

set_option autoImplicit false

namespace IrStream

/-! ## Answers

When two look-ups have to succeed both, `BothOk` says it without naming what they answer. -/

/-- Both succeed, with answers that are related. -/
def BothOk {ε α β : Type} (R : α → β → Prop) (answer : Except ε α) (answer' : Except ε β) : Prop :=
  ∃ a b, answer = .ok a ∧ answer' = .ok b ∧ R a b

theorem BothOk.imp {ε α β : Type} {R S : α → β → Prop} {answer : Except ε α} {answer' : Except ε β}
    (both : BothOk R answer answer') (h : ∀ {a b}, R a b → S a b) : BothOk S answer answer' := by
  obtain ⟨a, b, found, there, related⟩ := both
  exact ⟨a, b, found, there, h related⟩

/-- What is found by two look-ups that both succeed is related. -/
theorem BothOk.of_ok {ε α β : Type} {R : α → β → Prop} {answer : Except ε α}
    {answer' : Except ε β} {a : α} {b : β} (both : BothOk R answer answer') (found : answer = .ok a)
    (there : answer' = .ok b) : R a b := by
  obtain ⟨_, _, found', there', related⟩ := both
  cases found.symm.trans found'
  cases there.symm.trans there'
  exact related

/-- A pair of handles that nothing is related to yet. -/
theorem biUnique_withPair {α β : Type} {R : α → β → Prop} {a : α} {b : β}
    (unique : Relator.BiUnique R) (new : ∀ {x y}, R x y → x ≠ a ∧ y ≠ b) :
    Relator.BiUnique (WithPair R a b) where
  left := WithPair.leftUnique unique.1 fun _ related => absurd rfl (new related).2
  right := WithPair.rightUnique unique.2 fun _ related => absurd rfl (new related).1

/-! ## Entries

Each of these relations says that everything is equal but handles, and that handles correspond. -/

/-- Which handles of two programs stand for the same thing. -/
structure Correspondence where
  /-- Types that stand for the same. -/
  type : TypeId → TypeId → Prop
  /-- Constants that stand for the same. -/
  constant : ConstId → ConstId → Prop
  /-- Globals that stand for the same. -/
  global : GlobalId → GlobalId → Prop
  /-- Functions that stand for the same. -/
  function : FuncId → FuncId → Prop
  /-- Arguments that stand for the same. -/
  arg : ArgId → ArgId → Prop
  /-- Blocks that stand for the same. -/
  block : BlockId → BlockId → Prop
  /-- Instructions that stand for the same. -/
  inst : InstId → InstId → Prop

/-- No handle stands for two, on either side. -/
structure Correspondence.OneToOne (m : Correspondence) : Prop where
  /-- One to one on types. -/
  type : Relator.BiUnique m.type
  /-- One to one on constants. -/
  constant : Relator.BiUnique m.constant
  /-- One to one on globals. -/
  global : Relator.BiUnique m.global
  /-- One to one on functions. -/
  function : Relator.BiUnique m.function
  /-- One to one on arguments. -/
  arg : Relator.BiUnique m.arg
  /-- One to one on blocks. -/
  block : Relator.BiUnique m.block
  /-- One to one on instructions. -/
  inst : Relator.BiUnique m.inst

/-- The second correspondence has all the pairs of the first. -/
structure Correspondence.Le (m larger : Correspondence) : Prop where
  type : ∀ {a b}, m.type a b → larger.type a b
  constant : ∀ {a b}, m.constant a b → larger.constant a b
  global : ∀ {a b}, m.global a b → larger.global a b
  function : ∀ {a b}, m.function a b → larger.function a b
  arg : ∀ {a b}, m.arg a b → larger.arg a b
  block : ∀ {a b}, m.block a b → larger.block a b
  inst : ∀ {a b}, m.inst a b → larger.inst a b

/-- The constants are the same up to the handles in them. -/
inductive Constant.Corresponds (m : Correspondence) : Constant → Constant → Prop
  | int {type other : TypeId} (bits : BitVec 128) (typed : m.type type other) :
      Corresponds m (.int type bits) (.int other bits)
  | float {type other : TypeId} (bits : UInt64) (typed : m.type type other) :
      Corresponds m (.float type bits) (.float other bits)
  | null {type other : TypeId} (typed : m.type type other) :
      Corresponds m (.null type) (.null other)
  | undef {type other : TypeId} (typed : m.type type other) :
      Corresponds m (.undef type) (.undef other)
  | aggregate {type other : TypeId} {elems others : List ConstId} (typed : m.type type other)
      (parts : List.Forall₂ m.constant elems others) :
      Corresponds m (.aggregate type elems) (.aggregate other others)
  | global {id other : GlobalId} (related : m.global id other) :
      Corresponds m (.global id) (.global other)
  | function {id other : FuncId} (related : m.function id other) :
      Corresponds m (.function id) (.function other)

/-- The operands are the same up to the handles in them. -/
inductive Operand.Corresponds (m : Correspondence) : Operand → Operand → Prop
  | const {id other : ConstId} (related : m.constant id other) :
      Corresponds m (.const id) (.const other)
  | arg {id other : ArgId} (related : m.arg id other) : Corresponds m (.arg id) (.arg other)
  | inst {id other : InstId} (related : m.inst id other) : Corresponds m (.inst id) (.inst other)
  | block {id other : BlockId} (related : m.block id other) :
      Corresponds m (.block id) (.block other)
  | text (text : String) : Corresponds m (.text text) (.text text)

/-- The instructions are the same up to the handles in them. -/
structure Inst.Corresponds (m : Correspondence) (inst other : Inst) : Prop where
  /-- The kinds are the same, up to the types that they mention. -/
  kind : inst.kind.Alike m.type other.kind
  /-- The results have types that stand for each other. -/
  type : m.type inst.type other.type
  /-- The operands correspond, one by one. -/
  operands : List.Forall₂ (Operand.Corresponds m) inst.operands other.operands
  /-- The results have the same name, or none has a name. -/
  name : other.name = inst.name
  /-- The blocks that they are in stand for each other. -/
  block : m.block inst.block other.block

structure Block.Corresponds (m : Correspondence) (block other : Block) : Prop where
  /-- The functions that they are in stand for each other. -/
  func : m.function block.func other.func
  /-- The blocks have the same label, or none has a label. -/
  label : other.label = block.label
  /-- As many instructions, which stand for each other in their order. -/
  insts : List.Forall₂ m.inst block.insts other.insts

structure Function.Corresponds (m : Correspondence) (function other : Function) : Prop where
  /-- The functions have the same name. -/
  name : other.name = function.name
  /-- Their types stand for each other. -/
  type : m.type function.type other.type
  /-- As many arguments, which stand for each other in their order. -/
  args : List.Forall₂ m.arg function.args other.args
  /-- As many blocks, which stand for each other in their order. -/
  blocks : List.Forall₂ m.block function.blocks other.blocks

structure Arg.Corresponds (m : Correspondence) (arg other : Arg) : Prop where
  func : m.function arg.func other.func
  number : other.number = arg.number
  type : m.type arg.type other.type
  name : other.name = arg.name

structure Global.Corresponds (m : Correspondence) (global other : Global) : Prop where
  /-- The globals have the same name. -/
  name : other.name = global.name
  /-- Their types stand for each other. -/
  type : m.type global.type other.type
  /-- Both are local to a thread or none is. -/
  threadLocal : other.threadLocal = global.threadLocal
  /-- Their initializers stand for each other, or none has one. -/
  init : Option.Rel m.constant global.init other.init

/-- What handles stand for that stand for each other is the same in both programs up to handles, and
no handle stands for two. -/
structure Program.Corresponds (m : Correspondence) (p q : Program) : Prop where
  /-- Nothing stands for two things. -/
  oneToOne : m.OneToOne
  /-- Types have alike shapes. -/
  type : ∀ {id other}, m.type id other →
    BothOk (TypeShape.Alike m.type) (p.types.shape id) (q.types.shape other)
  /-- Constants are made of constants that correspond. -/
  constant : ∀ {id other}, m.constant id other →
    BothOk (Constant.Corresponds m) (p.constant id) (q.constant other)
  /-- Globals have the same name, corresponding types, and corresponding initializers or none. -/
  global : ∀ {id other}, m.global id other →
    BothOk (Global.Corresponds m) (p.global id) (q.global other)
  /-- Functions have the same name, and corresponding arguments and blocks in the same order. -/
  function : ∀ {id other}, m.function id other →
    BothOk (Function.Corresponds m) (p.function id) (q.function other)
  /-- Arguments have the same number and name. -/
  arg : ∀ {id other}, m.arg id other → BothOk (Arg.Corresponds m) (p.arg id) (q.arg other)
  /-- Blocks have the same label, and corresponding instructions in the same order. -/
  block : ∀ {id other}, m.block id other →
    BothOk (Block.Corresponds m) (p.block id) (q.block other)
  /-- Instructions do the same with corresponding operands. -/
  inst : ∀ {id other}, m.inst id other → BothOk (Inst.Corresponds m) (p.inst id) (q.inst other)

/-! ### Larger correspondences -/

theorem InstKind.Alike.imp {R S : TypeId → TypeId → Prop} {kind other : InstKind}
    (h : kind.Alike R other) (related : ∀ {a b}, R a b → S a b) : kind.Alike S other := by
  cases h with
  | alloca allocated => exact .alloca (related allocated)
  | getElementPtr source => exact .getElementPtr (related source)
  | plain none => exact .plain none

/-- Constants have no blocks, instructions and arguments in them. -/
theorem Constant.Corresponds.imp {m larger : Correspondence} {value other : Constant}
    (h : value.Corresponds m other) (type : ∀ {a b}, m.type a b → larger.type a b)
    (constant : ∀ {a b}, m.constant a b → larger.constant a b)
    (global : ∀ {a b}, m.global a b → larger.global a b)
    (function : ∀ {a b}, m.function a b → larger.function a b) :
    value.Corresponds larger other := by
  cases h with
  | int bits typed => exact .int bits (type typed)
  | float bits typed => exact .float bits (type typed)
  | null typed => exact .null (type typed)
  | undef typed => exact .undef (type typed)
  | aggregate typed parts => exact .aggregate (type typed) (parts.imp fun _ _ => constant)
  | global related => exact .global (global related)
  | function related => exact .function (function related)

theorem Constant.Corresponds.type {m : Correspondence} {value other : Constant}
    (h : value.Corresponds m other) (basic : m.type .ptr .ptr) : m.type value.type other.type := by
  cases h with
  | int _ typed | float _ typed | null typed | undef typed | aggregate typed => exact typed
  | global | function => exact basic

section

variable {m larger : Correspondence} (le : m.Le larger)
include le

theorem Operand.Corresponds.mono {operand other : Operand} (h : operand.Corresponds m other) :
    operand.Corresponds larger other := by
  cases h with
  | const related => exact .const (le.constant related)
  | arg related => exact .arg (le.arg related)
  | inst related => exact .inst (le.inst related)
  | block related => exact .block (le.block related)
  | text text => exact .text text

theorem Inst.Corresponds.mono {inst other : Inst} (h : inst.Corresponds m other) :
    inst.Corresponds larger other where
  kind := h.kind.imp le.type
  type := le.type h.type
  operands := h.operands.imp fun _ _ => .mono le
  name := h.name
  block := le.block h.block

end

/-! ## Handles that stand for each other -/

/-- The types that every arena begins with stand for themselves. -/
theorem Types.Twins.sameTerm_basic {left right : Types} (twins : left.Twins right) {id : TypeId}
    (basic : id.index ≤ 5) : Types.SameTerm left right id id := by
  have bound : id.index < Types.initial.shapes.size := Nat.lt_succ_of_le basic
  have found : Types.initial.shape id = .ok Types.initial.shapes[id.index] :=
    shape_eq_ok_iff.mpr (Array.getElem?_eq_getElem bound)
  have here := twins.regular.basic found
  have there := twins.regular'.basic found
  have leaf : ∀ first second : TypeId → TypeTerm,
      Types.initial.shapes[id.index].termWith first = Types.initial.shapes[id.index].termWith second
        ∧ (Types.initial.shapes[id.index].termWith first).Readable := by
    intro first second
    have mem := Array.getElem_mem bound
    generalize Types.initial.shapes[id.index] = shape at mem
    simp only [Types.initial, List.mem_toArray, List.mem_cons, List.not_mem_nil, or_false] at mem
    rcases mem with rfl | rfl | rfl | rfl | rfl | rfl
    · exact ⟨rfl, .void⟩
    · exact ⟨rfl, .int (by decide)⟩
    · exact ⟨rfl, .int (by decide)⟩
    · exact ⟨rfl, .int (by decide)⟩
    · exact ⟨rfl, .int (by decide)⟩
    · exact ⟨rfl, .ptr 0⟩
  refine ⟨has_of_shape here, has_of_shape there, ?_, ?_⟩
  · rw [twins.regular.layered.term_of_shape here, twins.regular'.layered.term_of_shape there]
    exact (leaf _ _).1
  · rw [twins.regular.layered.term_of_shape here]
    exact (leaf _ left.term).2

namespace Program

/-- Globals with the same name. -/
def SameGlobal (p q : Program) (id other : GlobalId) : Prop :=
  BothOk (fun global global' => global'.name = global.name) (p.global id) (q.global other)

/-- Functions with the same name. -/
def SameFunction (p q : Program) (id other : FuncId) : Prop :=
  BothOk (fun function function' => function'.name = function.name) (p.function id)
    (q.function other)

/-- Arguments with the same number, of functions with the same name. -/
def SameArg (p q : Program) (id other : ArgId) : Prop :=
  BothOk (fun arg arg' => p.SameFunction q arg.func arg'.func ∧ arg'.number = arg.number)
    (p.arg id) (q.arg other)

end Program

/-- Which blocks and instructions of two programs stand for each other. -/
structure Locals where
  /-- Blocks with the same place in their functions. -/
  block : BlockId → BlockId → Prop
  /-- Instructions with the same place in their blocks. -/
  inst : InstId → InstId → Prop

/-- The second relations have all the pairs of the first. -/
structure Locals.Le (locals larger : Locals) : Prop where
  block : ∀ {a b}, locals.block a b → larger.block a b
  inst : ∀ {a b}, locals.inst a b → larger.inst a b

theorem Locals.Le.refl (locals : Locals) : locals.Le locals := ⟨id, id⟩

theorem Locals.Le.trans {locals middle larger : Locals} (first : locals.Le middle)
    (second : middle.Le larger) : locals.Le larger :=
  ⟨fun h => second.block (first.block h), fun h => second.inst (first.inst h)⟩

/-- No blocks and no instructions. -/
def Locals.none : Locals := ⟨fun _ _ => False, fun _ _ => False⟩

namespace Program

/-- The handles that stand for each other, if these constants, blocks and instructions do. -/
def matchingWith (p q : Program) (constant : ConstId → ConstId → Prop) (locals : Locals) :
    Correspondence where
  type := Types.SameTerm p.types q.types
  constant := constant
  global := p.SameGlobal q
  function := p.SameFunction q
  arg := p.SameArg q
  block := locals.block
  inst := locals.inst

/-- Constants that can be followed through both arenas side by side. -/
def SameConst (p q : Program) (id other : ConstId) : Prop :=
  ∃ R : ConstId → ConstId → Prop, R id other ∧ ∀ {id other}, R id other →
    BothOk (Constant.Corresponds (p.matchingWith q R .none)) (p.constant id) (q.constant other)

/-- The handles that stand for each other, if these blocks and instructions do. -/
def matching (p q : Program) (locals : Locals) : Correspondence :=
  p.matchingWith q (p.SameConst q) locals

variable {p q p' q' : Program} {locals larger : Locals}

theorem SameConst.bothOk {id other : ConstId} (same : p.SameConst q id other) (locals : Locals) :
    BothOk (Constant.Corresponds (p.matching q locals)) (p.constant id) (q.constant other) := by
  obtain ⟨R, related, step⟩ := same
  exact (step related).imp fun alike =>
    alike.imp (fun h => h) (fun related => ⟨R, related, step⟩) (fun h => h) (fun h => h)

/-- Constants that are the same up to handles stand for each other. -/
theorem SameConst.of_bothOk {id other : ConstId}
    (both : BothOk (Constant.Corresponds (p.matching q locals)) (p.constant id)
      (q.constant other)) : p.SameConst q id other := by
  refine ⟨WithPair (p.SameConst q) id other, .new, fun related => ?_⟩
  rcases related with same | ⟨rfl, rfl⟩
  · exact (same.bothOk .none).imp fun alike => alike.imp (fun h => h) .old (fun h => h) (fun h => h)
  · exact both.imp fun alike => alike.imp (fun h => h) .old (fun h => h) (fun h => h)

/-! ### Later programs

Names, types and the order of arguments do not change, so what stands for each other goes on doing
so. -/

/-- What is written stays: names, types and arguments of what there is, and all constants. -/
structure Later (p q : Program) : Prop where
  /-- Types are interned, and nothing else is done with them. -/
  types : p.types.Writes q.types
  /-- Constants stay what they are. -/
  constant : ∀ {id constant}, p.constant id = .ok constant → q.constant id = .ok constant
  /-- A global may get an initializer. -/
  global : ∀ {id global}, p.global id = .ok global → ∃ later, q.global id = .ok later
    ∧ later.name = global.name ∧ later.type = global.type ∧ later.threadLocal = global.threadLocal
  /-- A function may get blocks. -/
  function : ∀ {id function}, p.function id = .ok function → ∃ later, q.function id = .ok later
    ∧ later.name = function.name ∧ later.type = function.type ∧ later.args = function.args
  /-- Arguments stay what they are. -/
  arg : ∀ {id arg}, p.arg id = .ok arg → q.arg id = .ok arg

theorem Later.refl (p : Program) : p.Later p where
  types := .refl _
  constant := id
  global found := ⟨_, found, rfl, rfl, rfl⟩
  function found := ⟨_, found, rfl, rfl, rfl⟩
  arg := id

/-- What a later program keeps, a still later one keeps as well. -/
theorem Later.trans {r : Program} (first : p.Later q) (second : q.Later r) : p.Later r where
  types := first.types.trans second.types
  constant found := second.constant (first.constant found)
  global found := by
    obtain ⟨_, found, name, type, threadLocal⟩ := first.global found
    obtain ⟨later, found, name', type', threadLocal'⟩ := second.global found
    exact ⟨later, found, name'.trans name, type'.trans type, threadLocal'.trans threadLocal⟩
  function found := by
    obtain ⟨_, found, name, type, args⟩ := first.function found
    obtain ⟨later, found, name', type', args'⟩ := second.function found
    exact ⟨later, found, name'.trans name, type'.trans type, args'.trans args⟩
  arg found := second.arg (first.arg found)

section

variable (later : p.Later p') (later' : q.Later q')
include later later'

theorem SameGlobal.mono {id other : GlobalId} (same : p.SameGlobal q id other) :
    p'.SameGlobal q' id other := by
  obtain ⟨global, global', found, there, name⟩ := same
  obtain ⟨global, found, kept, -⟩ := later.global found
  obtain ⟨global', there, kept', -⟩ := later'.global there
  exact ⟨global, global', found, there, kept'.trans (name.trans kept.symm)⟩

theorem SameFunction.mono {id other : FuncId} (same : p.SameFunction q id other) :
    p'.SameFunction q' id other := by
  obtain ⟨function, function', found, there, name⟩ := same
  obtain ⟨function, found, kept, -⟩ := later.function found
  obtain ⟨function', there, kept', -⟩ := later'.function there
  exact ⟨function, function', found, there, kept'.trans (name.trans kept.symm)⟩

theorem SameArg.mono {id other : ArgId} (same : p.SameArg q id other) :
    p'.SameArg q' id other := by
  obtain ⟨arg, arg', found, there, func, number⟩ := same
  exact ⟨arg, arg', later.arg found, later'.arg there, func.mono later later', number⟩

theorem SameConst.mono (twins : p.types.Twins q.types) {id other : ConstId}
    (same : p.SameConst q id other) : p'.SameConst q' id other := by
  obtain ⟨R, related, step⟩ := same
  refine ⟨R, related, fun related => ?_⟩
  obtain ⟨constant, constant', found, there, alike⟩ := step related
  refine ⟨constant, constant', later.constant found, later'.constant there, ?_⟩
  exact alike.imp (·.mono twins later.types.interns later'.types.interns) (fun h => h)
    (·.mono later later') (·.mono later later')

/-- **What stands for each other stays so** while programs are built. -/
theorem matching_le (twins : p.types.Twins q.types) (le : locals.Le larger) :
    (p.matching q locals).Le (p'.matching q' larger) where
  type same := same.mono twins later.types.interns later'.types.interns
  constant same := SameConst.mono later later' twins same
  global same := SameGlobal.mono later later' same
  function same := SameFunction.mono later later' same
  arg same := SameArg.mono later later' same
  block := le.block
  inst := le.inst

end

end Program

end IrStream
