import IrStream.Proofs.Pairing.Lookup
import IrStream.Proofs.Pairing.Reading
import IrStream.Proofs.Program.Frame

/-!
# Programs that say the same

`Program.Paired` relates two programs by a pairing.  Types and constants may have other handles, and
the second program may have instructions that the first one does not have, all of them debug
instructions; everything else has the same handle in both.

An operation on both programs, with arguments that are alike, leaves them paired, by a pairing that
may be larger; there is a lemma for each operation.  The second program alone may get types,
constants and debug instructions.

The relation is put together from one for each arena.  Type and constant arenas have their own
modules (`Types.Paired`, `Constants.Paired`), because interning makes them hard; the instruction
arena is treated here, and all others are related place by place (`SameArena`), as they have the
same handles.

Each operation of a program changes one or two arenas, and with them the pairing:

* interning extends the relation between types or constants, and what was alike stays alike;
* an instruction that is added to both extends the relation between instructions, and the one
  between results if it has a name;
* an instruction that is added to the second program alone is dropped, and the pairing says so;
* everything else leaves the pairing as it is.

A block lists its instructions, and so the lists of two blocks are related by thinning.  That is why
a dropped instruction may be added anywhere: the list of the first block does not change.
-/

set_option autoImplicit false

namespace IrStream

/-! ## Instructions

The instruction arenas.  Handles of the second one may be larger, since it has more entries. -/

/-- The instruction arenas say the same of related instructions.  Everything else about programs can
be compared by handle, but these are numbered differently once an instruction is missing. -/
structure InstsPaired (m : Pairing) (small large : Array Inst) : Prop where
  /-- Related instructions are alike. -/
  inst : ∀ {id other}, m.inst id other → ∃ first second, small[id.index]? = some first
    ∧ large[other.index]? = some second ∧ first.Alike m second
  /-- No instruction is related to two of the second program. -/
  right : Relator.RightUnique m.inst
  /-- No instruction is related to two of the first program. -/
  left : Relator.LeftUnique m.inst
  /-- An operand refers to a result that has a name. -/
  value : ∀ {id other}, m.value id other → m.inst id other
    ∧ ∃ inst, small[id.index]? = some inst ∧ inst.name.isSome = true
  /-- What only the second program has is a debug instruction. -/
  dropped : ∀ {other}, m.dropped other → ∃ inst, large[other.index]? = some inst
    ∧ inst.kind.isDebug = true
  /-- Nothing is both related and missing in the first program. -/
  apart : ∀ {id other}, m.inst id other → ¬ m.dropped other

namespace InstsPaired

variable {m larger : Pairing} {small large : Array Inst} {first second : Inst} {id other : InstId}

theorem bounds (paired : InstsPaired m small large) (related : m.inst id other) :
    id.index < small.size ∧ other.index < large.size := by
  obtain ⟨_, _, found, there, -⟩ := paired.inst related
  exact ⟨(Array.getElem?_eq_some_iff.mp found).1, (Array.getElem?_eq_some_iff.mp there).1⟩

/-- A larger relation of types and constants keeps instructions related; the relation of
instructions itself has to stay, as it says which of them exist. -/
theorem mono (paired : InstsPaired m small large) (le : m.Le larger) (inst : larger.inst = m.inst)
    (value : larger.value = m.value) (dropped : larger.dropped = m.dropped) :
    InstsPaired larger small large where
  inst related := by
    rw [inst] at related
    obtain ⟨first, second, found, there, alike⟩ := paired.inst related
    exact ⟨first, second, found, there, alike.mono le⟩
  right := inst ▸ paired.right
  left := inst ▸ paired.left
  value related := by
    rw [value] at related
    rw [inst]
    exact paired.value related
  dropped known := by
    rw [dropped] at known
    exact paired.dropped known
  apart related known := by
    rw [inst] at related
    rw [dropped] at known
    exact paired.apart related known

end InstsPaired

namespace Pairing

/-- The pairing with more types. -/
def withTypes (m : Pairing) (type : TypeId → TypeId → Prop) : Pairing := { m with type }

/-- The pairing with one more constant. -/
def withConstant (m : Pairing) (id other : ConstId) : Pairing :=
  { m with constant := WithPair m.constant id other }

/-- The pairing with one more instruction, which may have a name.  Only with a name can an operand
refer to it. -/
def withInst (m : Pairing) (id other : InstId) (named : Bool) : Pairing :=
  { m with
    inst := WithPair m.inst id other
    value := if named then WithPair m.value id other else m.value }

/-- The pairing with one more dropped instruction.  The first program gets nothing, so its numbers
stay. -/
def withDropped (m : Pairing) (id : InstId) : Pairing :=
  { m with dropped := fun other => m.dropped other ∨ other = id }

variable {m : Pairing}

theorem le_withTypes {type : TypeId → TypeId → Prop} (le : m.type ≤ type) :
    m.Le (m.withTypes type) :=
  { Pairing.Le.refl m with type := le _ _ }

theorem le_withConstant (id other : ConstId) : m.Le (m.withConstant id other) :=
  { Pairing.Le.refl m with constant := .old }

/-- A pairing grows with an instruction that both programs get. -/
theorem le_withInst (id other : InstId) (named : Bool) : m.Le (m.withInst id other named) := by
  refine { Pairing.Le.refl m with inst := .old, value := fun h => ?_ }
  cases named with
  | true => exact .old h
  | false => exact h

theorem le_withDropped (id : InstId) : m.Le (m.withDropped id) :=
  { Pairing.Le.refl m with dropped := .inl }

end Pairing

namespace InstsPaired

variable {m : Pairing} {small large : Array Inst} {first second : Inst} {id other : InstId}

/-- Both arenas get an instruction.  Each is the last of its arena, and these two stand for each
other from now on. -/
theorem push (paired : InstsPaired m small large) (alike : first.Alike m second) :
    InstsPaired (m.withInst ⟨small.size⟩ ⟨large.size⟩ first.name.isSome) (small.push first)
      (large.push second) := by
  have le := m.le_withInst ⟨small.size⟩ ⟨large.size⟩ first.name.isSome
  exact {
    inst := fun related => by
      rcases related with related | ⟨rfl, rfl⟩
      · obtain ⟨_, _, found, there, alike⟩ := paired.inst related
        exact ⟨_, _, getElem?_push_of_some found, getElem?_push_of_some there, alike.mono le⟩
      · exact ⟨_, _, Array.getElem?_push_size, Array.getElem?_push_size, alike.mono le⟩
    right := WithPair.rightUnique paired.right fun other related =>
      (Nat.lt_irrefl _ (paired.bounds related).1).elim
    left := WithPair.leftUnique paired.left fun id related =>
      (Nat.lt_irrefl _ (paired.bounds related).2).elim
    value := fun {id other} related => by
      have old (known : m.value id other) : WithPair m.inst ⟨small.size⟩ ⟨large.size⟩ id other
          ∧ ∃ inst, (small.push first)[id.index]? = some inst ∧ inst.name.isSome = true := by
        obtain ⟨related, inst, found, named⟩ := paired.value known
        exact ⟨.old related, inst, getElem?_push_of_some found, named⟩
      cases named : first.name.isSome with
      | false =>
        rw [named] at related
        exact old related
      | true =>
        rw [named] at related
        rcases related with known | ⟨rfl, rfl⟩
        · exact old known
        · exact ⟨.new, first, Array.getElem?_push_size, named⟩
    dropped := fun known => by
      obtain ⟨inst, there, debug⟩ := paired.dropped known
      exact ⟨inst, getElem?_push_of_some there, debug⟩
    apart := fun related known => by
      rcases related with related | ⟨-, rfl⟩
      · exact paired.apart related known
      · obtain ⟨inst, there, -⟩ := paired.dropped known
        exact Nat.lt_irrefl _ (Array.getElem?_eq_some_iff.mp there).1 }

/-- The second arena alone gets a debug instruction.  From here on the numbers of later instructions
differ by one more. -/
theorem push_dropped (paired : InstsPaired m small large) (debug : second.kind.isDebug = true) :
    InstsPaired (m.withDropped ⟨large.size⟩) small (large.push second) where
  inst related := by
    obtain ⟨_, _, found, there, alike⟩ := paired.inst related
    exact ⟨_, _, found, getElem?_push_of_some there, alike.mono (m.le_withDropped _)⟩
  right := paired.right
  left := paired.left
  value := paired.value
  dropped known := by
    rcases known with known | rfl
    · obtain ⟨inst, there, debug⟩ := paired.dropped known
      exact ⟨inst, getElem?_push_of_some there, debug⟩
    · exact ⟨second, Array.getElem?_push_size, debug⟩
  apart related known := by
    rcases known with known | rfl
    · exact paired.apart related known
    · exact Nat.lt_irrefl _ (paired.bounds related).2

theorem getElem?_set_self {arena : Array Inst} {index : Nat} {old new : Inst}
    (found : arena[index]? = some old) : (arena.setIfInBounds index new)[index]? = some new := by
  rw [Array.getElem?_setIfInBounds_self, if_pos (Array.getElem?_eq_some_iff.mp found).1]

/-- Related instructions are replaced; a name stays.  This is how an instruction gets its operands
and its type. -/
theorem set (paired : InstsPaired m small large) (related : m.inst id other) {old : Inst}
    (found : small[id.index]? = some old) (name : first.name = old.name)
    (alike : first.Alike m second) :
    InstsPaired m (small.setIfInBounds id.index first)
      (large.setIfInBounds other.index second) where
  inst {index index'} here := by
    obtain ⟨entry, entry', known, known', before⟩ := paired.inst here
    by_cases same : index = id
    · subst same
      cases paired.right related here
      exact ⟨first, second, getElem?_set_self known, getElem?_set_self known', alike⟩
    · have apart : index' ≠ other := fun same' => same (paired.left (same' ▸ here) related)
      refine ⟨entry, entry', ?_, ?_, before⟩
      · rwa [Array.getElem?_setIfInBounds_ne fun index => same (InstId.ext index.symm)]
      · rwa [Array.getElem?_setIfInBounds_ne fun index => apart (InstId.ext index.symm)]
  right := paired.right
  left := paired.left
  value {index _} known := by
    obtain ⟨here, inst, there, named⟩ := paired.value known
    refine ⟨here, ?_⟩
    by_cases same : index = id
    · subst same
      cases found.symm.trans there
      exact ⟨first, getElem?_set_self found, name ▸ named⟩
    · have apart : id.index ≠ index.index := fun equal => same (InstId.ext equal.symm)
      exact ⟨inst, by rwa [Array.getElem?_setIfInBounds_ne apart], named⟩
  dropped {index} known := by
    obtain ⟨inst, there, debug⟩ := paired.dropped known
    have apart : other.index ≠ index.index := fun same =>
      paired.apart related (InstId.ext same ▸ known)
    exact ⟨inst, by rwa [Array.getElem?_setIfInBounds_ne apart], debug⟩
  apart := paired.apart

/-- A dropped instruction is replaced.  Nothing in the first program corresponds to it. -/
theorem set_dropped (paired : InstsPaired m small large) (known : m.dropped other)
    (debug : second.kind.isDebug = true) :
    InstsPaired m small (large.setIfInBounds other.index second) where
  inst {index index'} related := by
    obtain ⟨first, entry, found, there, alike⟩ := paired.inst related
    have apart : other.index ≠ index'.index := fun same =>
      paired.apart related (InstId.ext same ▸ known)
    exact ⟨first, entry, found, by rwa [Array.getElem?_setIfInBounds_ne apart], alike⟩
  right := paired.right
  left := paired.left
  value := paired.value
  dropped {index} here := by
    obtain ⟨inst, there, isDebug⟩ := paired.dropped here
    by_cases same : other.index = index.index
    · rw [← same] at there ⊢
      exact ⟨second, getElem?_set_self there, debug⟩
    · exact ⟨inst, by rwa [Array.getElem?_setIfInBounds_ne same], isDebug⟩
  apart := paired.apart

end InstsPaired

/-! ## Programs -/

namespace Program

/-- The programs say the same of related handles.  Only types, constants and instructions may have
other handles in the second program.  The first program is the one with fewer instructions. -/
structure Paired (m : Pairing) (small large : Program) : Prop where
  /-- Globals, functions, blocks and arguments keep their handles. -/
  whole : m.Whole
  /-- Sizes are computed for the same target. -/
  layout : large.layout = small.layout
  /-- Related types say the same, and no type is related to two. -/
  types : small.types.Paired m.type large.types
  /-- Related constants say the same, and no constant is related to two. -/
  constants : small.constants.Paired m large.constants
  /-- The globals are the same up to handles, in the same order. -/
  globals : SameArena (Global.Alike m) small.globals large.globals
  /-- The functions are the same up to handles, in the same order. -/
  functions : SameArena (Function.Alike m) small.functions large.functions
  /-- The blocks are the same up to instructions that the first program lacks. -/
  blocks : SameArena (Block.Alike m) small.blocks large.blocks
  /-- Instructions that are related are alike, and in the same order. -/
  insts : InstsPaired m small.insts large.insts
  /-- The arguments are the same up to handles, in the same order. -/
  args : SameArena (Arg.Alike m) small.args large.args

namespace Paired

variable {m larger : Pairing} {small large after afterLarge : Program}

/-! ### Looking up

Look-ups that succeed on both sides answer what is alike.  Put together with the fact that they
succeed on both sides or on none, that is the interface which encoding goes by. -/

section

variable (paired : small.Paired m large)
include paired

theorem basic {id : TypeId} (small : id.index ≤ 5) : m.type id id :=
  paired.types.basic small

theorem global {id : GlobalId} {first second : Global} (found : small.global id = .ok first)
    (there : large.global id = .ok second) : first.Alike m second :=
  paired.globals.entry (global_eq_ok_iff.mp found) (global_eq_ok_iff.mp there)

theorem function {id : FuncId} {first second : Function} (found : small.function id = .ok first)
    (there : large.function id = .ok second) : first.Alike m second :=
  paired.functions.entry (function_eq_ok_iff.mp found) (function_eq_ok_iff.mp there)

theorem block {id : BlockId} {first second : Block} (found : small.block id = .ok first)
    (there : large.block id = .ok second) : first.Alike m second :=
  paired.blocks.entry (block_eq_ok_iff.mp found) (block_eq_ok_iff.mp there)

theorem arg {id : ArgId} {first second : Arg} (found : small.arg id = .ok first)
    (there : large.arg id = .ok second) : first.Alike m second :=
  paired.args.entry (arg_eq_ok_iff.mp found) (arg_eq_ok_iff.mp there)

theorem inst {id other : InstId} (related : m.inst id other) {first second : Inst}
    (found : small.inst id = .ok first) (there : large.inst other = .ok second) :
    first.Alike m second := by
  obtain ⟨_, _, again, again', alike⟩ := paired.insts.inst related
  cases (inst_eq_ok_iff.mp found).symm.trans again
  cases (inst_eq_ok_iff.mp there).symm.trans again'
  exact alike

theorem constant {id other : ConstId} (related : m.constant id other) {first second : Constant}
    (found : small.constant id = .ok first) (there : large.constant other = .ok second) :
    first.Alike m second := by
  obtain ⟨_, _, again, again', alike⟩ := paired.constants.constant related
  cases found.symm.trans again
  cases there.symm.trans again'
  exact alike

/-- A name stands for the same global in both programs.  Globals are listed in the same order, with
the same names. -/
theorem findGlobal?_eq (name : String) : large.findGlobal? name = small.findGlobal? name := by
  rw [findGlobal?, findGlobal?, paired.globals.findIdx?_eq fun alike => by rw [alike.name]]

/-- A name stands for the same function in both programs. -/
theorem findFunction?_eq (name : String) :
    large.findFunction? name = small.findFunction? name := by
  rw [findFunction?, findFunction?, paired.functions.findIdx?_eq fun alike => by rw [alike.name]]

/-- Operands that are alike have related types.  Blocks and texts have none. -/
theorem operandType? {operand other : Operand} (alike : operand.Alike m other)
    {type? type?' : Option TypeId} (found : small.operandType? operand = .ok type?)
    (there : large.operandType? other = .ok type?') : Option.Rel m.type type? type?' := by
  cases alike with
  | const related =>
    simp only [Program.operandType?, bind_eq_ok_iff, pure_eq_ok_iff] at found there
    obtain ⟨_, found, rfl⟩ := found
    obtain ⟨_, there, rfl⟩ := there
    exact .some ((paired.constant related found there).type (paired.basic (Nat.le_refl 5)))
  | arg id =>
    simp only [Program.operandType?, bind_eq_ok_iff, pure_eq_ok_iff] at found there
    obtain ⟨_, found, rfl⟩ := found
    obtain ⟨_, there, rfl⟩ := there
    exact .some (paired.arg found there).type
  | inst related =>
    simp only [Program.operandType?, bind_eq_ok_iff, pure_eq_ok_iff] at found there
    obtain ⟨_, found, rfl⟩ := found
    obtain ⟨_, there, rfl⟩ := there
    exact .some (paired.inst (paired.insts.value related).1 found there).type
  | block | text =>
    cases found
    cases there
    exact .none

end

/-- **Programs that are paired are alike**: related handles have entries that are alike, and what
has the same handle in both is there in both or in neither.  So all that was proved of the encoder
for programs that are alike holds of these. -/
theorem alike (paired : small.Paired m large) : small.Alike m large where
  layout := paired.layout
  basic := paired.basic
  types := paired.types.toEmbeds
  constants := paired.constants.toEmbeds
  biUnique_global := paired.whole.biUnique_global
  biUnique_inst := ⟨paired.insts.left, paired.insts.right⟩
  global {id other} related := by
    obtain rfl : id = other := by rwa [paired.whole.global] at related
    exact paired.globals.agree_resolve id.index _
  function {id} _ := paired.functions.agree_resolve id.index _
  block {id} _ := paired.blocks.agree_resolve id.index _
  arg {id} _ := paired.args.agree_resolve id.index _
  inst related := by
    obtain ⟨first, second, found, there, alike⟩ := paired.insts.inst related
    exact ⟨first, second, inst_eq_ok_iff.mpr found, inst_eq_ok_iff.mpr there, alike⟩
  value related := by
    obtain ⟨related, inst, found, named⟩ := paired.insts.value related
    refine ⟨related, fun again => .inl ?_⟩
    cases (inst_eq_ok_iff.mpr found).symm.trans again
    exact named
  dropped known := by
    obtain ⟨inst, there, debug⟩ := paired.insts.dropped known
    exact ⟨inst, inst_eq_ok_iff.mpr there, debug⟩
  listed _ _ block _ := paired.whole.block block
  owner _ _ := paired.whole.function _

/-! ### Types and constants -/

/-- Types and constants change in both programs.  Interning is the one thing that changes them, and
it may give out different handles. -/
theorem grow (paired : small.Paired m large) (le : m.Le larger) (whole : larger.Whole)
    (inst : larger.inst = m.inst) (value : larger.value = m.value)
    (dropped : larger.dropped = m.dropped)
    {types types' : Types} (typesPaired : types.Paired larger.type types')
    {constants constants' : Constants} (constantsPaired : constants.Paired larger constants') :
    { small with types, constants }.Paired larger
      { large with types := types', constants := constants' } where
  whole := whole
  layout := paired.layout
  types := typesPaired
  constants := constantsPaired
  globals := paired.globals.imp fun alike => alike.mono le
  functions := paired.functions.imp fun alike => alike.mono le
  blocks := paired.blocks.imp fun alike => alike.mono le
  insts := paired.insts.mono le inst value dropped
  args := paired.args.imp fun alike => alike.mono le

theorem withTypes (paired : small.Paired m large) {type : TypeId → TypeId → Prop}
    (le : m.type ≤ type) {types types' : Types} (typesPaired : types.Paired type types') :
    { small with types }.Paired (m.withTypes type) { large with types := types' } :=
  paired.grow (Pairing.le_withTypes le) { paired.whole with } rfl rfl rfl typesPaired
    (paired.constants.mono (Pairing.le_withTypes le) rfl)

/-- Both programs intern a constant.  The constants are alike, so this is a pair that may be added.
-/
theorem internConstant (paired : small.Paired m large) {constant other : Constant}
    (alike : constant.Alike m other) :
    (small.internConstant constant).2.Paired
      (m.withConstant (small.internConstant constant).1 (large.internConstant other).1)
      (large.internConstant other).2 :=
  paired.grow (Pairing.le_withConstant _ _) { paired.whole with } rfl rfl rfl paired.types
    (paired.constants.intern ⟨paired.types.left, paired.types.right⟩ paired.whole.biUnique_global
      alike)

/-- The second program alone gets types. -/
theorem of_types (paired : small.Paired m large) {types : Types}
    (typesPaired : small.types.Paired m.type types) : small.Paired m { large with types } :=
  paired.grow (.refl m) paired.whole rfl rfl rfl typesPaired paired.constants

/-- The second program alone interns a constant. -/
theorem of_internConstant (paired : small.Paired m large) (constant : Constant) :
    small.Paired m (large.internConstant constant).2 :=
  paired.grow (.refl m) paired.whole rfl rfl rfl paired.types (paired.constants.of_intern constant)

/-- Both programs intern the same number, for related types. -/
theorem constInt (paired : small.Paired m large) {type other : TypeId} {value : Int}
    {id id' : ConstId} (related : m.type type other)
    (run : small.constInt type value = .ok (id, after))
    (run' : large.constInt other value = .ok (id', afterLarge)) :
    after.Paired (m.withConstant id id') afterLarge := by
  obtain ⟨bits, found, same⟩ := constInt_eq_ok run
  obtain ⟨bits', there, same'⟩ := constInt_eq_ok run'
  cases paired.types.alike_of_shape related found there
  have interned := paired.internConstant
    (.int (truncate (BitVec.ofInt 128 value) bits.toNat) related)
  rwa [same, same'] at interned

/-! ### Globals and functions

These have the same handles, so there is nothing to add to the pairing. -/

/-- Both programs get a global, with the same handle. -/
theorem addGlobal (paired : small.Paired m large) {name : String} {type other : TypeId}
    {threadLocal : Bool} {id id' : GlobalId} (related : m.type type other)
    (run : small.addGlobal name type threadLocal = .ok (id, after))
    (run' : large.addGlobal name other threadLocal = .ok (id', afterLarge)) :
    id' = id ∧ after.Paired m afterLarge := by
  obtain ⟨rfl, rfl⟩ := addGlobal_eq_ok run
  obtain ⟨rfl, rfl⟩ := addGlobal_eq_ok run'
  exact ⟨by rw [paired.globals.size], {
    paired with globals := paired.globals.push ⟨rfl, related, rfl, .none⟩ }⟩

theorem setInitializer (paired : small.Paired m large) {id : GlobalId} {init other : ConstId}
    (related : m.constant init other) (run : small.setInitializer id init = .ok after)
    (run' : large.setInitializer id other = .ok afterLarge) : after.Paired m afterLarge := by
  obtain ⟨first, found, rfl⟩ := setInitializer_eq_ok run
  obtain ⟨second, there, rfl⟩ := setInitializer_eq_ok run'
  have alike := paired.global found there
  exact { paired with globals := paired.globals.set { alike with init := .some related } }

/-- Both programs get a function, with the same handle. -/
theorem addFunction (paired : small.Paired m large) {name : String} {type other : TypeId}
    {id id' : FuncId} (related : m.type type other)
    (run : small.addFunction name type = .ok (id, after))
    (run' : large.addFunction name other = .ok (id', afterLarge)) :
    id' = id ∧ after.Paired m afterLarge := by
  obtain ⟨params, ret, vararg, found, rfl, rfl⟩ := addFunction_eq_ok run
  obtain ⟨params', ret', vararg', there, rfl, rfl⟩ := addFunction_eq_ok run'
  cases paired.types.alike_of_shape related found there with
  | func _ parameters result =>
  have size := paired.functions.size
  refine ⟨by rw [size], { paired with functions := ?_, args := ?_ }⟩
  · have args : params'.mapIdx (fun number _ => ArgId.mk (large.args.size + number))
        = params.mapIdx fun number _ => ArgId.mk (small.args.size + number) := by
      rw [← paired.args.size]
      exact List.ext_getElem (by simp [parameters.length_eq]) (by simp)
    have alike (listed : List ArgId) :
        Function.Alike m ⟨name, type, listed, []⟩ ⟨name, other, listed, []⟩ :=
      ⟨rfl, related, rfl, rfl⟩
    rw [args]
    exact paired.functions.push (alike _)
  · refine paired.args.append (List.forall₂_iff_get.mpr ⟨by simp [parameters.length_eq], ?_⟩)
    intro index first second
    rw [List.get_eq_getElem, List.get_eq_getElem, List.getElem_mapIdx, List.getElem_mapIdx]
    exact ⟨congrArg FuncId.mk size.symm, rfl,
      parameters.get (by simpa using first) (by simpa using second), rfl⟩

theorem setArgName (paired : small.Paired m large) {id : ArgId} {name : String}
    (run : small.setArgName id name = .ok after)
    (run' : large.setArgName id name = .ok afterLarge) : after.Paired m afterLarge := by
  obtain ⟨first, found, rfl⟩ := setArgName_eq_ok run
  obtain ⟨second, there, rfl⟩ := setArgName_eq_ok run'
  have alike := paired.arg found there
  exact { paired with args := paired.args.set { alike with name := rfl } }

/-! ### Blocks and instructions -/

/-- Both programs get a block, with the same handle. -/
theorem addBlock (paired : small.Paired m large) {func : FuncId} {label : Option String}
    {id id' : BlockId} (run : small.addBlock func label = .ok (id, after))
    (run' : large.addBlock func label = .ok (id', afterLarge)) :
    id' = id ∧ after.Paired m afterLarge := by
  obtain ⟨first, found, rfl, rfl⟩ := addBlock_eq_ok run
  obtain ⟨second, there, rfl, rfl⟩ := addBlock_eq_ok run'
  have alike := paired.function found there
  have size := paired.blocks.size
  refine ⟨by rw [size], { paired with
    blocks := paired.blocks.push ⟨rfl, rfl, .nil⟩
    functions := paired.functions.set { alike with blocks := ?_ } }⟩
  rw [alike.blocks, size]

/-- Both programs get an instruction. -/
theorem addInst (paired : small.Paired m large) {block : BlockId} {kind kind' : InstKind}
    {type other : TypeId} {operands others : List Operand} {name : Option String}
    {id id' : InstId} (kinds : kind.Alike m.type kind') (types : m.type type other)
    (used : List.Forall₂ (Operand.Alike m) operands others)
    (run : small.addInst block kind type operands name = .ok (id, after))
    (run' : large.addInst block kind' other others name = .ok (id', afterLarge)) :
    after.Paired (m.withInst id id' name.isSome) afterLarge := by
  obtain ⟨first, found, rfl, rfl⟩ := addInst_eq_ok run
  obtain ⟨second, there, rfl, rfl⟩ := addInst_eq_ok run'
  have alike := paired.block found there
  have le := m.le_withInst ⟨small.insts.size⟩ ⟨large.insts.size⟩ name.isSome
  have grown := paired.blocks.imp fun alike => alike.mono le
  have added :
      Inst.Alike m ⟨kind, type, operands, name, block⟩ ⟨kind', other, others, name, block⟩ :=
    ⟨kinds, types, used, rfl, rfl⟩
  exact {
    whole := { paired.whole with }
    layout := paired.layout
    types := paired.types
    constants := paired.constants.mono le rfl
    globals := paired.globals.imp fun alike => alike.mono le
    functions := paired.functions.imp fun alike => alike.mono le
    blocks := grown.set ⟨alike.func, alike.label,
      (alike.insts.imp le.inst le.dropped).append (.keep .new .nil)⟩
    insts := paired.insts.push added
    args := paired.args.imp fun alike => alike.mono le }

/-- The second program alone gets a debug instruction. -/
theorem addDropped (paired : small.Paired m large) {block : BlockId} {kind : InstKind}
    {type : TypeId} {operands : List Operand} {name : Option String} {id : InstId}
    (debug : kind.isDebug = true)
    (run : large.addInst block kind type operands name = .ok (id, afterLarge)) :
    small.Paired (m.withDropped id) afterLarge := by
  obtain ⟨second, there, rfl, rfl⟩ := addInst_eq_ok run
  have le := m.le_withDropped ⟨large.insts.size⟩
  have grown := paired.blocks.imp fun alike => alike.mono le
  exact {
    whole := { paired.whole with }
    layout := paired.layout
    types := paired.types
    constants := paired.constants.mono le rfl
    globals := paired.globals.imp fun alike => alike.mono le
    functions := paired.functions.imp fun alike => alike.mono le
    blocks := grown.set_right fun found => by
      have alike := (paired.block (block_eq_ok_iff.mpr found) there).mono le
      refine ⟨alike.func, alike.label, ?_⟩
      rw [← List.append_nil (Block.insts _)]
      exact alike.insts.append (.drop (.inr rfl) .nil)
    insts := paired.insts.push_dropped debug
    args := paired.args.imp fun alike => alike.mono le }

/-- Related instructions get operands that are alike. -/
theorem setOperands (paired : small.Paired m large) {id other : InstId}
    {operands others : List Operand} (related : m.inst id other)
    (used : List.Forall₂ (Operand.Alike m) operands others)
    (run : small.setOperands id operands = .ok after)
    (run' : large.setOperands other others = .ok afterLarge) : after.Paired m afterLarge := by
  obtain ⟨first, found, rfl⟩ := setOperands_eq_ok run
  obtain ⟨second, there, rfl⟩ := setOperands_eq_ok run'
  have alike := paired.inst related found there
  have replaced : Inst.Alike m { first with operands } { second with operands := others } :=
    { alike with operands := used }
  exact { paired with
    insts := paired.insts.set related (inst_eq_ok_iff.mp found) rfl replaced }

/-- Related instructions may get related types. -/
theorem setInstType (paired : small.Paired m large) {id other : InstId} {type type' : TypeId}
    (related : m.inst id other) (typed : m.type type type')
    (run : small.setInstType id type = .ok after)
    (run' : large.setInstType other type' = .ok afterLarge) : after.Paired m afterLarge := by
  obtain ⟨first, found, rfl⟩ := setInstType_eq_ok run
  obtain ⟨second, there, rfl⟩ := setInstType_eq_ok run'
  have alike := paired.inst related found there
  have replaced : Inst.Alike m { first with type } { second with type := type' } :=
    { alike with type := typed }
  exact { paired with
    insts := paired.insts.set related (inst_eq_ok_iff.mp found) rfl replaced }

/-- A debug instruction of the second program alone gets its operands. -/
theorem setDropped (paired : small.Paired m large) {id : InstId} {operands : List Operand}
    (dropped : m.dropped id) (run : large.setOperands id operands = .ok afterLarge) :
    small.Paired m afterLarge := by
  obtain ⟨inst, there, rfl⟩ := setOperands_eq_ok run
  obtain ⟨_, again, debug⟩ := paired.insts.dropped dropped
  cases (inst_eq_ok_iff.mp there).symm.trans again
  exact { paired with insts := paired.insts.set_dropped dropped debug }

end Paired

/-! ## Programs without any entity

The pairing that loading begins with relates the types that every arena begins with, and nothing
else. -/

/-- The pairing of programs without any entity. -/
def emptyPairing : Pairing where
  type id other := id = other ∧ id.index ≤ 5
  constant _ _ := False
  global := Eq
  function _ := True
  block _ := True
  arg _ := True
  inst _ _ := False
  value _ _ := False
  dropped _ := False

/-- Empty programs are paired by the relation that holds for the types that every arena begins with.
-/
theorem Paired.empty (layout : DataLayout) :
    (Program.empty layout).Paired emptyPairing (.empty layout) where
  whole := ⟨rfl, fun _ => trivial, fun _ => trivial, fun _ => trivial⟩
  layout := rfl
  types := .initial
  constants := .empty fun _ _ related => related
  globals := .empty
  functions := .empty
  blocks := .empty
  insts := {
    inst := False.elim
    right := fun _ _ _ h => h.elim
    left := fun _ _ _ h => h.elim
    value := False.elim
    dropped := False.elim
    apart := False.elim }
  args := .empty

end Program

end IrStream
