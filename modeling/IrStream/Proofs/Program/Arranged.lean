import IrStream.Proofs.Program.Closed
import IrStream.Proofs.Program.Listed
import Mathlib.Data.List.Basic

/-!
# Arenas agree

Owners list what they own, and what is owned names its owner: two ways of saying the same, kept in
different arenas.  `Program.Arranged` says that they agree, and counts: whatever has an owner is
listed once, by its owner, and by nobody else.

Most of this is part of `Program.Consistent`, `Program.Rooted` and `Program.Listed`.  What is left
is that functions have an argument for each parameter, in order (`Program.Parametrized`), and that
no name is taken twice (`Program.Distinct`).

Each of these five properties is an invariant of its own, with its own module or section, and each
is proved operation by operation.  They are kept apart because they do not need each other.  A
conjunction of all of them would have to be carried through every operation, and a change of one
operation would touch the proof of them all.

`Arranged` is what a reader wants to know, and is stated without any of them.  It counts: for an
instruction and a block, the number of times that the block lists the instruction is one if the
instruction names the block, and zero if it names another one.  With a handle, a name and an owner
that are all the same thing, nothing is left to interpret.

## Statements

* `Step.parametrized`, `Step.names`, `Step.distinct`: what one operation does to arguments and to
  names.
* `hasSymbol_eq_false_iff`: a name is free if nothing has it.
* `findIdx?_name_eq_some_iff`: where names are distinct, the entry found by a name is the one that
  has it.
* `Built.arranged`: **the arenas of a built program agree.**
-/

set_option autoImplicit false

namespace IrStream

namespace Program

/-- The arguments that a function lists. -/
def argsOf (program : Program) (id : FuncId) : List ArgId :=
  match program.function id with
  | .ok function => function.args
  | .error _ => []

/-- The names of globals and of functions. -/
def names (program : Program) : List String :=
  program.globals.toList.map (·.name) ++ program.functions.toList.map (·.name)

/-- An argument is that of a function for the parameter with a number. -/
def StandsFor (program : Program) (func : FuncId) (params : List TypeId) (number : Nat)
    (listed : ArgId) : Prop :=
  ∃ arg, program.arg listed = .ok arg ∧ arg.func = func ∧ arg.number = number
    ∧ params[number]? = some arg.type

/-- Functions have one argument for each parameter, in order. -/
def Parametrized (program : Program) : Prop :=
  ∀ ⦃id function⦄, program.function id = .ok function → ∃ params ret vararg,
    program.types.shape function.type = .ok (.func params ret vararg)
      ∧ function.args.length = params.length
      ∧ ∀ number listed, function.args[number]? = some listed →
        program.StandsFor id params number listed

/-- No two globals or functions have the same name. -/
def Distinct (program : Program) : Prop :=
  program.names.Nodup

/-- Owners and lists agree, and so do names and what they stand for. -/
structure Arranged (program : Program) : Prop where
  /-- An instruction is listed once, by the block that it names. -/
  inst : ∀ {id inst}, program.inst id = .ok inst → ∀ block,
    (program.instsOf block).count id = if block = inst.block then 1 else 0
  /-- A block is listed once, by the function that it names. -/
  block : ∀ {id block}, program.block id = .ok block → ∀ func,
    (program.blocksOf func).count id = if func = block.func then 1 else 0
  /-- An argument is listed once, by the function that it names. -/
  arg : ∀ {id arg}, program.arg id = .ok arg → ∀ func,
    (program.argsOf func).count id = if func = arg.func then 1 else 0
  /-- Nothing is listed that does not exist. -/
  listedInst : ∀ block, ∀ id ∈ program.instsOf block, ∃ inst, program.inst id = .ok inst
  /-- No block is listed that does not exist. -/
  listedBlock : ∀ func, ∀ id ∈ program.blocksOf func, ∃ block, program.block id = .ok block
  /-- A function has an argument for each parameter. -/
  params : program.Parametrized
  /-- No name is taken twice. -/
  names : program.Distinct
  /-- A global is found by its name, and by no other. -/
  findGlobal : ∀ name id, program.findGlobal? name = some id ↔
    ∃ global, program.global id = .ok global ∧ global.name = name
  /-- A function is found by its name, and by no other. -/
  findFunction : ∀ name id, program.findFunction? name = some id ↔
    ∃ function, program.function id = .ok function ∧ function.name = name

variable {program after : Program}

/-! ## Arguments

A function gets its arguments when it is added, all of them at once, and never another one. -/

/-- Parameters are kept with the types of functions, their arguments, and what those stand for. -/
theorem Parametrized.keep (h : program.Parametrized)
    (types : program.types.Extends after.types)
    (functions : ∀ {id function}, after.function id = .ok function → ∃ old,
      program.function id = .ok old ∧ old.type = function.type ∧ old.args = function.args)
    (args : ∀ {id arg}, program.arg id = .ok arg → ∃ later, after.arg id = .ok later
      ∧ later.func = arg.func ∧ later.number = arg.number ∧ later.type = arg.type) :
    after.Parametrized := by
  intro id function found
  obtain ⟨old, there, type, listed⟩ := functions found
  obtain ⟨params, ret, vararg, shape, length, stands⟩ := h there
  rw [type] at shape
  rw [listed] at length stands
  refine ⟨params, ret, vararg, types.shape_of_unnamed shape rfl, length,
    fun number id here => ?_⟩
  obtain ⟨arg, known, func, place, typed⟩ := stands number id here
  obtain ⟨later, known, func', place', type'⟩ := args known
  exact ⟨later, known, func'.trans func, place'.trans place, type' ▸ typed⟩

/-- The arguments of a new function stand for its parameters. -/
theorem Parametrized.addFunction (h : program.Parametrized) {name : String} {type : TypeId}
    {id : FuncId} (run : program.addFunction name type = .ok (id, after)) : after.Parametrized := by
  have kept := @arg_of_addFunction _ _ _ _ _ run
  obtain ⟨params, ret, vararg, shape, -, rfl⟩ := addFunction_eq_ok run
  intro other function found
  rcases getElem?_push_eq_some (function_eq_ok_iff.mp found) with ⟨last, rfl⟩ | old
  · refine ⟨params, ret, vararg, shape, List.length_mapIdx, fun number listed here => ?_⟩
    rw [List.getElem?_mapIdx, Option.map_eq_some_iff] at here
    obtain ⟨param, atNumber, rfl⟩ := here
    refine ⟨⟨⟨program.functions.size⟩, number, param, none⟩, ?_, FuncId.ext last.symm, rfl,
      atNumber⟩
    rw [arg_eq_ok_iff, Array.getElem?_append_right (Nat.le_add_right _ _)]
    simp [atNumber]
  · obtain ⟨params, ret, vararg, shape, length, stands⟩ := h (function_eq_ok_iff.mpr old)
    refine ⟨params, ret, vararg, shape, length, fun number listed here => ?_⟩
    obtain ⟨arg, known, stands⟩ := stands number listed here
    exact ⟨arg, kept known, stands⟩

/-- A function is added together with its arguments, one for each parameter, and no step takes one
of them away. -/
theorem Step.parametrized (ptr : program.types.Has .ptr) (h : program.Parametrized)
    (step : Step program after) : after.Parametrized := by
  have types := step.types_extends ptr
  cases step with
  | constInt run =>
    obtain ⟨_, -, same⟩ := constInt_eq_ok run
    cases same
    exact h
  | addGlobal _ run =>
    rw [(addGlobal_eq_ok run).2]
    exact h
  | setInitializer _ run =>
    obtain ⟨_, -, rfl⟩ := setInitializer_eq_ok run
    exact h
  | addFunction run => exact h.addFunction run
  | @setArgName _ id _ run =>
    obtain ⟨arg, there, rfl⟩ := setArgName_eq_ok run
    refine h.keep types (fun found => ⟨_, found, rfl, rfl⟩) fun {other entry} found => ?_
    by_cases same : other = id
    · rw [same] at found ⊢
      cases there.symm.trans found
      exact ⟨_, resolve_set_self there, rfl, rfl, rfl⟩
    · exact ⟨entry, (resolve_set_of_ne fun index => same (ArgId.ext index)).trans found, rfl, rfl,
        rfl⟩
  | addBlock run =>
    obtain ⟨function, there, -, rfl⟩ := addBlock_eq_ok run
    refine h.keep types (fun {other entry} found => ?_) fun found => ⟨_, found, rfl, rfl, rfl⟩
    rcases getElem?_set_eq_some (function_eq_ok_iff.mp there) (function_eq_ok_iff.mp found) with
      ⟨index, rfl⟩ | ⟨-, kept⟩
    · exact ⟨function, (FuncId.ext index : other = _) ▸ there, rfl, rfl⟩
    · exact ⟨entry, function_eq_ok_iff.mpr kept, rfl, rfl⟩
  | addInst _ _ _ run =>
    obtain ⟨_, -, -, rfl⟩ := addInst_eq_ok run
    exact h
  | setOperands _ run =>
    obtain ⟨_, -, rfl⟩ := setOperands_eq_ok run
    exact h
  | setInstType _ run =>
    obtain ⟨_, -, rfl⟩ := setInstType_eq_ok run
    exact h
  | _ => exact h.keep types (fun found => ⟨_, found, rfl, rfl⟩) fun found =>
      ⟨_, found, rfl, rfl, rfl⟩

/-- No argument stands for two parameters. -/
theorem Parametrized.nodup_args (h : program.Parametrized) {id : FuncId} {function : Function}
    (found : program.function id = .ok function) : function.args.Nodup := by
  obtain ⟨_, _, _, -, -, stands⟩ := h found
  refine List.nodup_iff_injective_get.mpr fun first second same => Fin.ext ?_
  have here := List.getElem?_eq_getElem first.isLt
  have there := List.getElem?_eq_getElem second.isLt
  obtain ⟨arg, known, -, number, -⟩ := stands first _ here
  obtain ⟨_, again, -, number', -⟩ := stands second _ there
  rw [List.get_eq_getElem, List.get_eq_getElem] at same
  rw [same] at known
  cases known.symm.trans again
  exact number.symm.trans number'

/-! ## Names

Globals and functions share their names.  A name is looked for before it is taken, so no two of them
have the same one; and no operation changes the name of anything. -/

theorem findGlobal?_eq_none_iff {name : String} :
    program.findGlobal? name = none ↔ name ∉ program.globals.toList.map (·.name) := by
  simp [findGlobal?, Array.findIdx?_eq_none_iff]

theorem findFunction?_eq_none_iff {name : String} :
    program.findFunction? name = none ↔ name ∉ program.functions.toList.map (·.name) := by
  simp [findFunction?, Array.findIdx?_eq_none_iff]

/-- A name is free if nothing has it. -/
theorem hasSymbol_eq_false_iff {name : String} :
    program.hasSymbol name = false ↔ name ∉ program.names := by
  rw [hasSymbol, Bool.or_eq_false_iff, names, List.mem_append, not_or, Option.isSome_eq_false_iff,
    Option.isSome_eq_false_iff, Option.isNone_iff_eq_none, Option.isNone_iff_eq_none,
    findGlobal?_eq_none_iff, findFunction?_eq_none_iff]

/-- Where names are distinct, the entry found by a name is the one that has it. -/
theorem findIdx?_name_eq_some_iff {α : Type} {arena : Array α} {name : α → String}
    (distinct : (arena.toList.map name).Nodup) {text : String} {index : Nat} :
    arena.findIdx? (name · == text) = some index ↔
      ∃ entry, arena[index]? = some entry ∧ name entry = text := by
  rw [Array.findIdx?_eq_some_iff_getElem]
  constructor
  · rintro ⟨bound, same, -⟩
    exact ⟨_, Array.getElem?_eq_getElem bound, eq_of_beq same⟩
  · rintro ⟨entry, there, rfl⟩
    obtain ⟨bound, rfl⟩ := Array.getElem?_eq_some_iff.mp there
    refine ⟨bound, beq_self_eq_true _, fun other before same => ?_⟩
    have apart := List.pairwise_iff_getElem.mp distinct other index (by simp; omega) (by simpa)
      before
    exact apart (by simpa using same)

/-- An entry may be replaced by one of the same name. -/
theorem map_name_setIfInBounds {α : Type} {arena : Array α} {name : α → String} {index : Nat}
    {old new : α} (there : arena[index]? = some old) (same : name new = name old) :
    (arena.setIfInBounds index new).toList.map name = arena.toList.map name := by
  obtain ⟨bound, rfl⟩ := Array.getElem?_eq_some_iff.mp there
  rw [Array.toList_setIfInBounds, List.map_set, same]
  refine List.ext_getElem (by simp) fun other _ _ => ?_
  rw [List.getElem_set]
  split
  · next here => simp [here]
  · rfl

/-- Globals and functions are called what they were called. -/
structure SameNames (program after : Program) : Prop where
  globals : after.globals.toList.map (·.name) = program.globals.toList.map (·.name)
  functions : after.functions.toList.map (·.name) = program.functions.toList.map (·.name)

theorem SameNames.names (same : program.SameNames after) : after.names = program.names := by
  rw [Program.names, Program.names, same.globals, same.functions]

theorem sameNames_setInitializer {id : GlobalId} {init : ConstId}
    (run : program.setInitializer id init = .ok after) : program.SameNames after := by
  obtain ⟨_, there, rfl⟩ := setInitializer_eq_ok run
  exact ⟨map_name_setIfInBounds (global_eq_ok_iff.mp there) rfl, rfl⟩

theorem sameNames_addBlock {func : FuncId} {label : Option String} {id : BlockId}
    (run : program.addBlock func label = .ok (id, after)) : program.SameNames after := by
  obtain ⟨_, there, -, rfl⟩ := addBlock_eq_ok run
  exact ⟨rfl, map_name_setIfInBounds (function_eq_ok_iff.mp there) rfl⟩

theorem hasSymbol_of_addGlobal {name : String} {type : TypeId} {threadLocal : Bool}
    {id : GlobalId} (run : program.addGlobal name type threadLocal = .ok (id, after)) :
    program.hasSymbol name = false := by
  rw [addGlobal] at run
  split at run
  · simp at run
  · next free => simpa using free

theorem hasSymbol_of_addFunction {name : String} {type : TypeId} {id : FuncId}
    (run : program.addFunction name type = .ok (id, after)) : program.hasSymbol name = false := by
  simp only [addFunction, bind_eq_ok_iff, dangling_eq_ok_iff] at run
  obtain ⟨shape, -, run⟩ := run
  split at run
  · split at run
    · simp at run
    · next free => simpa using free
  · simp at run

/-- How names change: not at all, or by a new one. -/
theorem Step.names (step : Step program after) :
    program.SameNames after
      ∨ ∃ name, program.hasSymbol name = false ∧ after.names.Perm (name :: program.names) := by
  -- only two of the steps bring a name, and both of them have asked whether it is free
  cases step with
  | constInt run =>
    obtain ⟨_, -, same⟩ := constInt_eq_ok run
    cases same
    exact .inl ⟨rfl, rfl⟩
  | @addGlobal _ name _ _ _ _ run =>
    have free := hasSymbol_of_addGlobal run
    rw [(addGlobal_eq_ok run).2]
    refine .inr ⟨name, free, ?_⟩
    simp only [Program.names, Array.toList_push, List.map_append, List.map_cons, List.map_nil,
      List.append_assoc, List.singleton_append]
    exact List.perm_middle
  | setInitializer _ run => exact .inl (sameNames_setInitializer run)
  | @addFunction _ name _ _ run =>
    have free := hasSymbol_of_addFunction run
    obtain ⟨_, _, _, -, -, rfl⟩ := addFunction_eq_ok run
    refine .inr ⟨name, free, ?_⟩
    simp only [Program.names, Array.toList_push, List.map_append, List.map_cons, List.map_nil,
      ← List.append_assoc]
    exact List.perm_append_singleton _ _
  | setArgName run =>
    obtain ⟨_, -, rfl⟩ := setArgName_eq_ok run
    exact .inl ⟨rfl, rfl⟩
  | addBlock run => exact .inl (sameNames_addBlock run)
  | addInst _ _ _ run =>
    obtain ⟨_, -, -, rfl⟩ := addInst_eq_ok run
    exact .inl ⟨rfl, rfl⟩
  | setOperands _ run =>
    obtain ⟨_, -, rfl⟩ := setOperands_eq_ok run
    exact .inl ⟨rfl, rfl⟩
  | setInstType _ run =>
    obtain ⟨_, -, rfl⟩ := setInstType_eq_ok run
    exact .inl ⟨rfl, rfl⟩
  | _ => exact .inl ⟨rfl, rfl⟩

/-- A new name is one that was free. -/
theorem Step.distinct (distinct : program.Distinct) (step : Step program after) :
    after.Distinct := by
  rcases step.names with same | ⟨name, free, grown⟩
  · rw [Distinct, same.names]
    exact distinct
  · exact grown.nodup_iff.mpr
      (List.nodup_cons.mpr ⟨hasSymbol_eq_false_iff.mp free, distinct⟩)

/-! ## Built programs -/

theorem Built.parametrized (built : program.Built) : program.Parametrized := by
  induction built with
  | empty layout =>
    intro id function found
    simp [function_eq_ok_iff, Program.empty] at found
  | step built step ih => exact step.parametrized built.consistent.2 ih

theorem Built.distinct (built : program.Built) : program.Distinct := by
  induction built with
  | empty layout => exact List.nodup_nil
  | step built step ih => exact step.distinct ih

/-- In a list without repetitions an entry is counted once, and others are not counted. -/
theorem count_eq_ite {α : Type} [DecidableEq α] {list : List α} {a : α} {P : Prop} [Decidable P]
    (nodup : list.Nodup) (mem : a ∈ list ↔ P) : list.count a = if P then 1 else 0 := by
  split
  · next here => exact List.count_eq_one_of_mem nodup (mem.mpr here)
  · next gone => exact List.count_eq_zero.mpr fun there => gone (mem.mp there)

theorem mem_instsOf_iff {id : BlockId} {listed : InstId} :
    listed ∈ program.instsOf id ↔
      ∃ block, program.block id = .ok block ∧ listed ∈ block.insts := by
  rw [instsOf]
  split
  · next found => simp [found]
  · next found => simp [found]

theorem mem_argsOf_iff {id : FuncId} {listed : ArgId} :
    listed ∈ program.argsOf id ↔
      ∃ function, program.function id = .ok function ∧ listed ∈ function.args := by
  rw [argsOf]
  split
  · next found => simp [found]
  · next found => simp [found]

theorem Consistent.nodup_instsOf (consistent : program.Consistent) (id : BlockId) :
    (program.instsOf id).Nodup := by
  rw [instsOf]
  split
  · next found => exact consistent.nodup_insts found
  · exact List.nodup_nil

theorem Parametrized.nodup_argsOf (h : program.Parametrized) (id : FuncId) :
    (program.argsOf id).Nodup := by
  rw [argsOf]
  split
  · next found => exact h.nodup_args found
  · exact List.nodup_nil

/-- A block lists an instruction exactly if the instruction names the block. -/
theorem Built.mem_instsOf (built : program.Built) {id : InstId} {inst : Inst}
    (found : program.inst id = .ok inst) {block : BlockId} :
    id ∈ program.instsOf block ↔ block = inst.block := by
  rw [mem_instsOf_iff]
  constructor
  · rintro ⟨entry, there, listed⟩
    obtain ⟨_, again, rfl⟩ := built.consistent.1.inst there id listed
    cases found.symm.trans again
    rfl
  · rintro rfl
    exact built.rooted.inst found

/-- A function lists a block exactly if the block names the function. -/
theorem Built.mem_blocksOf (built : program.Built) {id : BlockId} {block : Block}
    (found : program.block id = .ok block) {func : FuncId} :
    id ∈ program.blocksOf func ↔ func = block.func := by
  constructor
  · intro mem
    obtain ⟨function, there, listed⟩ := mem_blocksOf_iff.mp mem
    obtain ⟨_, again, rfl⟩ := built.consistent.1.block there id listed
    cases found.symm.trans again
    rfl
  · rintro rfl
    exact built.listed found

/-- A function lists an argument exactly if the argument names the function. -/
theorem Built.mem_argsOf (built : program.Built) {id : ArgId} {arg : Arg}
    (found : program.arg id = .ok arg) {func : FuncId} :
    id ∈ program.argsOf func ↔ func = arg.func := by
  rw [mem_argsOf_iff]
  constructor
  · rintro ⟨function, there, listed⟩
    obtain ⟨_, again, rfl⟩ := built.rooted.arg there id listed
    cases found.symm.trans again
    rfl
  · rintro rfl
    obtain ⟨function, _, _, _, there, -, -, here⟩ := built.consistent.1.arg found
    exact ⟨function, there, List.mem_of_getElem? here⟩

/-- **The arenas of a built program agree.** -/
theorem Built.arranged (built : program.Built) : program.Arranged where
  inst found block := count_eq_ite (built.consistent.1.nodup_instsOf block)
    (built.mem_instsOf found)
  block found func := count_eq_ite (built.consistent.1.nodup_blocksOf func)
    (built.mem_blocksOf found)
  arg found func := count_eq_ite (built.parametrized.nodup_argsOf func) (built.mem_argsOf found)
  listedInst block id mem := by
    obtain ⟨entry, there, listed⟩ := mem_instsOf_iff.mp mem
    obtain ⟨inst, known, -⟩ := built.consistent.1.inst there id listed
    exact ⟨inst, known⟩
  listedBlock func id mem := by
    obtain ⟨function, there, listed⟩ := mem_blocksOf_iff.mp mem
    obtain ⟨block, known, -⟩ := built.consistent.1.block there id listed
    exact ⟨block, known⟩
  params := built.parametrized
  names := built.distinct
  findGlobal name id := by
    have distinct := (List.nodup_append.mp built.distinct).1
    simp only [findGlobal?, Option.map_eq_some_iff, findIdx?_name_eq_some_iff distinct,
      global_eq_ok_iff]
    constructor
    · rintro ⟨index, found, rfl⟩
      exact found
    · exact fun found => ⟨id.index, found, rfl⟩
  findFunction name id := by
    have distinct := (List.nodup_append.mp built.distinct).2.1
    simp only [findFunction?, Option.map_eq_some_iff, findIdx?_name_eq_some_iff distinct,
      function_eq_ok_iff]
    constructor
    · rintro ⟨index, found, rfl⟩
      exact found
    · exact fun found => ⟨id.index, found, rfl⟩

end Program

end IrStream
