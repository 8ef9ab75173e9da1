import IrStream.Proofs.Document.Loading
import IrStream.Proofs.Reordering.Resolving

/-!
# Function bodies that are built alike

Two programs have the same declarations (`Program.Declared`) if globals, functions and arguments
that stand for each other have the same types and names.  A function of one of them and a function
of the other are built to the same extent if their blocks and instructions correspond
(`Program.SameBody`), so far as they are there.

Loading the same function entry in two such programs adds blocks and instructions one by one to both
functions, and then gives both their operands.  `Loader.along_defineFunction` says that both loads
fail, or both succeed and leave functions that are built to the same extent.

There are three ways in which a program changes while bodies are loaded, each a weaker form of the
one before.

* `Program.Enlarges` — types and constants are added.  That is all that resolving does.
* `Program.Fills` — blocks and instructions may be added or replaced too, and globals stay as they
  are.
* `Program.Completes` — globals may be given initializers as well, but there are no other ones, and
  no other functions or arguments.

Whatever is said of two programs in terms of declarations survives the weakest of them.  `SameBody`
is about one function of each, and survives what happens to all other functions; that is its lemma
`keep`.
-/

set_option autoImplicit false

namespace IrStream

namespace Program

/-! ## Declarations

What can be referred to from another function or from an initializer is declared before any body is
built: the globals, the functions with their types, and the arguments.  None of these changes
afterwards, apart from the initializers, so two programs that are declared alike stay so.

Looking a global or a function up by name answers the same before and after.  What is found there
may have grown, which is why the relations of this section speak of names and types and of nothing
else. -/

/-- What is written stays, and no global, function or argument is added. -/
structure Completes (p q : Program) : Prop where
  /-- What is written stays. -/
  later : p.Later q
  /-- The names of globals and functions are the same. -/
  names : p.SameNames q
  /-- The arguments are the same. -/
  args : q.args = p.args

/-- What is more, globals stay as they are. -/
structure Fills (p q : Program) : Prop extends Completes p q where
  globals : q.globals = p.globals

/-- What stands for each other is declared with the same type, and arguments have the same name. -/
structure Declared (p q : Program) : Prop where
  /-- The programs have the same names. -/
  twins : p.Twins q
  /-- Globals of the same name have types with the same term. -/
  global : ∀ {id other}, p.SameGlobal q id other →
    BothOk (fun global global' => Types.SameTerm p.types q.types global.type global'.type
      ∧ global'.threadLocal = global.threadLocal) (p.global id) (q.global other)
  /-- Functions of the same name have types with the same term, and arguments in the same order. -/
  function : ∀ {id other}, p.SameFunction q id other →
    BothOk (fun function function' => Types.SameTerm p.types q.types function.type function'.type
      ∧ List.Forall₂ (p.SameArg q) function.args function'.args) (p.function id) (q.function other)
  /-- Arguments at the same place have types with the same term, and the same name. -/
  arg : ∀ {id other}, p.SameArg q id other →
    BothOk (fun arg arg' => Types.SameTerm p.types q.types arg.type arg'.type
      ∧ arg'.name = arg.name) (p.arg id) (q.arg other)

variable {p q p' q' : Program}

/-- A program completes itself. -/
theorem Completes.refl (p : Program) : p.Completes p := ⟨.refl p, ⟨rfl, rfl⟩, rfl⟩

/-- Completing goes on. -/
theorem Completes.trans {r : Program} (first : p.Completes q) (second : q.Completes r) :
    p.Completes r where
  later := first.later.trans second.later
  names := ⟨second.names.globals.trans first.names.globals,
    second.names.functions.trans first.names.functions⟩
  args := second.args.trans first.args

instance : Growth Completes := ⟨.refl, .trans⟩

/-- A program fills itself. -/
theorem Fills.refl (p : Program) : p.Fills p := ⟨.refl p, rfl⟩

/-- Filling bodies goes on. -/
theorem Fills.trans {r : Program} (first : p.Fills q) (second : q.Fills r) : p.Fills r :=
  ⟨first.toCompletes.trans second.toCompletes, second.globals.trans first.globals⟩

instance : Growth Fills := ⟨.refl, .trans⟩

/-- Resolving is a way of filling bodies, one that adds nothing to them. -/
theorem Enlarges.fills (enlarges : p.Enlarges q) : p.Fills q where
  later := enlarges.later
  names := ⟨by rw [enlarges.globals], by rw [enlarges.functions]⟩
  args := enlarges.args
  globals := enlarges.globals

namespace Completes

/-- No name of a global is added or lost. -/
theorem isSome_findGlobal? (completes : p.Completes q) (name : String) :
    (q.findGlobal? name).isSome = (p.findGlobal? name).isSome := by
  rw [Bool.eq_iff_iff, Option.isSome_iff_ne_none, Option.isSome_iff_ne_none, ne_eq, ne_eq,
    findGlobal?_eq_none_iff, findGlobal?_eq_none_iff, completes.names.globals]

/-- No name of a function is added or lost. -/
theorem isSome_findFunction? (completes : p.Completes q) (name : String) :
    (q.findFunction? name).isSome = (p.findFunction? name).isSome := by
  rw [Bool.eq_iff_iff, Option.isSome_iff_ne_none, Option.isSome_iff_ne_none, ne_eq, ne_eq,
    findFunction?_eq_none_iff, findFunction?_eq_none_iff, completes.names.functions]

/-- There are no other globals than before. -/
theorem global_of_global (completes : p.Completes q) {id : GlobalId} {global : Global}
    (found : q.global id = .ok global) :
    ∃ old, p.global id = .ok old ∧ global.name = old.name := by
  have size : q.globals.size = p.globals.size := by
    simpa using congrArg List.length completes.names.globals
  have bound : id.index < p.globals.size :=
    size ▸ (Array.getElem?_eq_some_iff.mp (global_eq_ok_iff.mp found)).1
  have old := global_eq_ok_iff.mpr (Array.getElem?_eq_getElem bound)
  obtain ⟨later, there, name, -⟩ := completes.later.global old
  cases found.symm.trans there
  exact ⟨_, old, name⟩

/-- There are no other functions than before. -/
theorem function_of_function (completes : p.Completes q) {id : FuncId} {function : Function}
    (found : q.function id = .ok function) :
    ∃ old, p.function id = .ok old ∧ function.name = old.name := by
  have size : q.functions.size = p.functions.size := by
    simpa using congrArg List.length completes.names.functions
  have bound : id.index < p.functions.size := size ▸ lt_size_of_function found
  have old := function_eq_ok_iff.mpr (Array.getElem?_eq_getElem bound)
  obtain ⟨later, there, name, -⟩ := completes.later.function old
  cases found.symm.trans there
  exact ⟨_, old, name⟩

variable (completes : p.Completes p') (completes' : q.Completes q')
include completes completes'

/-- Globals stand for each other afterwards exactly if they did before. -/
theorem sameGlobal_iff {id : GlobalId} {other : GlobalId} :
    p'.SameGlobal q' id other ↔ p.SameGlobal q id other := by
  refine ⟨?_, SameGlobal.mono completes.later completes'.later⟩
  rintro ⟨global, global', found, there, name⟩
  obtain ⟨old, found, kept⟩ := completes.global_of_global found
  obtain ⟨old', there, kept'⟩ := completes'.global_of_global there
  exact ⟨old, old', found, there, kept'.symm.trans (name.trans kept)⟩

/-- Functions stand for each other afterwards exactly if they did before. -/
theorem sameFunction_iff {id other : FuncId} :
    p'.SameFunction q' id other ↔ p.SameFunction q id other := by
  refine ⟨?_, SameFunction.mono completes.later completes'.later⟩
  rintro ⟨function, function', found, there, name⟩
  obtain ⟨old, found, kept⟩ := completes.function_of_function found
  obtain ⟨old', there, kept'⟩ := completes'.function_of_function there
  exact ⟨old, old', found, there, kept'.symm.trans (name.trans kept)⟩

/-- Arguments stand for each other afterwards exactly if they did before. -/
theorem sameArg_iff {id other : ArgId} : p'.SameArg q' id other ↔ p.SameArg q id other := by
  refine ⟨?_, SameArg.mono completes.later completes'.later⟩
  rintro ⟨arg, arg', found, there, func, number⟩
  rw [Program.arg, completes.args] at found
  rw [Program.arg, completes'.args] at there
  exact ⟨_, _, found, there, (sameFunction_iff completes completes').mp func, number⟩

end Completes

/-- Programs with the same names have them when they have been completed. -/
theorem Twins.complete (twins : p.Twins q) (completes : p.Completes p')
    (completes' : q.Completes q') : p'.Twins q' where
  types := twins.types.mono completes.later.types.interns completes'.later.types.interns
  known := twins.known.writes completes.later.types
  known' := twins.known'.writes completes'.later.types
  globals name := by
    rw [completes.isSome_findGlobal?, completes'.isSome_findGlobal?, twins.globals]
  functions name := by
    rw [completes.isSome_findFunction?, completes'.isSome_findFunction?, twins.functions]

/-- Declarations stay the same while programs are completed. -/
theorem Declared.complete (declared : p.Declared q) (completes : p.Completes p')
    (completes' : q.Completes q') : p'.Declared q' := by
  have types {type other : TypeId} (same : Types.SameTerm p.types q.types type other) :
      Types.SameTerm p'.types q'.types type other :=
    same.mono declared.twins.types completes.later.types.interns completes'.later.types.interns
  refine ⟨declared.twins.complete completes completes', fun same => ?_, fun same => ?_,
    fun same => ?_⟩
  · obtain ⟨global, global', found, there, typed, threadLocal⟩ :=
      declared.global ((completes.sameGlobal_iff completes').mp same)
    obtain ⟨later, found, -, type, kept⟩ := completes.later.global found
    obtain ⟨later', there, -, type', kept'⟩ := completes'.later.global there
    refine ⟨later, later', found, there, ?_, kept'.trans (threadLocal.trans kept.symm)⟩
    rw [type, type']
    exact types typed
  · obtain ⟨function, function', found, there, typed, args⟩ :=
      declared.function ((completes.sameFunction_iff completes').mp same)
    obtain ⟨later, found, -, type, kept⟩ := completes.later.function found
    obtain ⟨later', there, -, type', kept'⟩ := completes'.later.function there
    refine ⟨later, later', found, there, ?_, ?_⟩
    · rw [type, type']
      exact types typed
    · rw [kept, kept']
      exact args.imp fun _ _ => SameArg.mono completes.later completes'.later
  · obtain ⟨arg, arg', found, there, typed, name⟩ :=
      declared.arg ((completes.sameArg_iff completes').mp same)
    exact ⟨arg, arg', completes.later.arg found, completes'.later.arg there, types typed, name⟩

/-! ## Operations that build bodies

An operation on a body adds nothing that has a name. -/

/-- Blocks and instructions are not declared, so any others may take their place. -/
theorem fills_bodies (blocks : Array Block) (insts : Array Inst) :
    p.Fills { p with blocks, insts } where
  later := { Later.refl p with }
  names := ⟨rfl, rfl⟩
  args := rfl
  globals := rfl

/-- Adding an instruction fills the body of a function. -/
theorem fills_addInst {block : BlockId} {kind : InstKind} {type : TypeId} {operands : List Operand}
    {name : Option String} {id : InstId}
    (run : p.addInst block kind type operands name = .ok (id, q)) : p.Fills q := by
  obtain ⟨_, -, -, rfl⟩ := addInst_eq_ok run
  exact fills_bodies _ _

/-- Adding a block fills the body of a function. -/
theorem fills_addBlock {func : FuncId} {label : Option String} {id : BlockId}
    (run : p.addBlock func label = .ok (id, q)) : p.Fills q := by
  have names := sameNames_addBlock run
  obtain ⟨function, there, -, rfl⟩ := addBlock_eq_ok run
  refine ⟨⟨{ Later.refl p with function := fun {other entry} found => ?_ }, names, rfl⟩, rfl⟩
  by_cases same : other = func
  · subst same
    cases there.symm.trans found
    exact ⟨_, resolve_set_self there, rfl, rfl, rfl⟩
  · exact ⟨entry, (resolve_set_of_ne fun index => same (FuncId.ext index)).trans found, rfl, rfl,
      rfl⟩

/-- Adding a block to a function that is there cannot fail. -/
theorem exists_addBlock {func : FuncId} {function : Function}
    (found : p.function func = .ok function) (label : Option String) :
    ∃ added, p.addBlock func label = .ok added := by
  rw [addBlock, found]
  exact ⟨_, rfl⟩

/-- Adding an instruction to a block that is there cannot fail. -/
theorem exists_addInst {block : BlockId} {owner : Block} (found : p.block block = .ok owner)
    (kind : InstKind) (type : TypeId) (name : Option String) :
    ∃ added, p.addInst block kind type [] name = .ok added := by
  rw [addInst, found]
  exact ⟨_, rfl⟩

/-! ## Bodies

Two functions, with blocks and instructions that stand for each other in the order in which they
were added. -/

/-- The functions are built to the same extent, with blocks and instructions that stand for each
other like this. -/
structure SameBody (locals : Locals) (f g : FuncId) (p q : Program) : Prop where
  /-- Whatever the bodies may refer to is declared alike. -/
  declared : p.Declared q
  /-- The functions list blocks that stand for each other, in the same order. -/
  function : BothOk (fun function function' => function'.name = function.name
    ∧ List.Forall₂ locals.block function.blocks function'.blocks) (p.function f) (q.function g)
  /-- Blocks that stand for each other list instructions that do, in the same order. -/
  block : ∀ {id other}, locals.block id other →
    BothOk (fun block block' => (block.func = f ∧ block'.func = g) ∧ block'.label = block.label
      ∧ List.Forall₂ locals.inst block.insts block'.insts) (p.block id) (q.block other)
  /-- Instructions that stand for each other are the same up to handles. -/
  inst : ∀ {id other}, locals.inst id other →
    BothOk (Inst.Corresponds (p.matching q locals)) (p.inst id) (q.inst other)
  /-- No block stands for two. -/
  uniqueBlock : Relator.BiUnique locals.block
  /-- No instruction stands for two. -/
  uniqueInst : Relator.BiUnique locals.inst

namespace SameBody

variable {locals : Locals} {f g : FuncId}

/-- Functions without blocks are built to the same extent. -/
theorem start (declared : p.Declared q) (function : BothOk (fun function function' =>
    function'.name = function.name ∧ function.blocks = [] ∧ function'.blocks = [])
      (p.function f) (q.function g)) : SameBody .none f g p q where
  declared := declared
  function := function.imp fun ⟨name, empty, empty'⟩ => ⟨name, by rw [empty, empty']; exact .nil⟩
  block := False.elim
  inst := False.elim
  uniqueBlock := ⟨fun _ _ _ h => h.elim, fun _ _ _ h => h.elim⟩
  uniqueInst := ⟨fun _ _ _ h => h.elim, fun _ _ _ h => h.elim⟩

/-- The functions stand for each other. -/
theorem sameFunction (body : SameBody locals f g p q) : p.SameFunction q f g :=
  body.function.imp And.left

/-- What stands for each other goes on to do so while bodies are filled. -/
theorem mono (body : SameBody locals f g p q) (fills : p.Fills p') (fills' : q.Fills q') :
    (p.matching q locals).Le (p'.matching q' locals) :=
  matching_le fills.later fills'.later body.declared.twins.types (.refl locals)

/-- Blocks that stand for each other are in their arenas, so no new block is one of them. -/
theorem block_bound (body : SameBody locals f g p q) {id other : BlockId}
    (related : locals.block id other) : id.index < p.blocks.size ∧ other.index < q.blocks.size := by
  obtain ⟨_, _, found, there, -⟩ := body.block related
  exact ⟨lt_size_of_block found, lt_size_of_block there⟩

/-- Instructions that stand for each other are in their arenas, so no new instruction is one of
them. -/
theorem inst_bound (body : SameBody locals f g p q) {id other : InstId}
    (related : locals.inst id other) : id.index < p.insts.size ∧ other.index < q.insts.size := by
  obtain ⟨_, _, found, there, -⟩ := body.inst related
  exact ⟨lt_size_of_inst found, lt_size_of_inst there⟩

/-- Nothing changes in the two functions. -/
theorem keep (body : SameBody locals f g p q) (fills : p.Fills p') (fills' : q.Fills q')
    (function : p'.function f = p.function f ∧ q'.function g = q.function g)
    (blocks : ∀ {id other}, locals.block id other →
      p'.block id = p.block id ∧ q'.block other = q.block other)
    (insts : ∀ {id other}, locals.inst id other →
      p'.inst id = p.inst id ∧ q'.inst other = q.inst other) :
    SameBody locals f g p' q' where
  declared := body.declared.complete fills.toCompletes fills'.toCompletes
  function := by
    rw [function.1, function.2]
    exact body.function
  block related := by
    rw [(blocks related).1, (blocks related).2]
    exact body.block related
  inst related := by
    rw [(insts related).1, (insts related).2]
    exact (body.inst related).imp (.mono (body.mono fills fills'))
  uniqueBlock := body.uniqueBlock
  uniqueInst := body.uniqueInst

/-- Resolving leaves blocks and instructions alone. -/
theorem enlarge (body : SameBody locals f g p q) (enlarges : p.Enlarges p')
    (enlarges' : q.Enlarges q') : SameBody locals f g p' q' := by
  refine body.keep enlarges.fills enlarges'.fills ⟨?_, ?_⟩ (fun _ => ⟨?_, ?_⟩) fun _ => ⟨?_, ?_⟩
  · rw [Program.function, Program.function, enlarges.functions]
  · rw [Program.function, Program.function, enlarges'.functions]
  · rw [Program.block, Program.block, enlarges.blocks]
  · rw [Program.block, Program.block, enlarges'.blocks]
  · rw [Program.inst, Program.inst, enlarges.insts]
  · rw [Program.inst, Program.inst, enlarges'.insts]

/-! ### Operations

An operation on both bodies, with arguments that correspond, succeeds on both sides and leaves
bodies that are built to the same extent. -/

/-- Both functions get a block. -/
theorem addBlock (body : SameBody locals f g p q) (label : Option String) :
    BothOk (fun a b => p.Fills a.2 ∧ q.Fills b.2
      ∧ SameBody ⟨WithPair locals.block a.1 b.1, locals.inst⟩ f g a.2 b.2)
      (p.addBlock f label) (q.addBlock g label) := by
  obtain ⟨function, function', found, there, name, blocks⟩ := body.function
  obtain ⟨⟨id, p'⟩, run⟩ := exists_addBlock found label
  obtain ⟨⟨id', q'⟩, run'⟩ := exists_addBlock there label
  have fills := fills_addBlock run
  have fills' := fills_addBlock run'
  obtain ⟨rfl, -, ⟨_, again, listed⟩, new, frame⟩ := addBlock_frame run
  obtain ⟨rfl, -, ⟨_, again', listed'⟩, new', frame'⟩ := addBlock_frame run'
  cases found.symm.trans again
  cases there.symm.trans again'
  have le : locals.Le ⟨WithPair locals.block ⟨p.blocks.size⟩ ⟨q.blocks.size⟩, locals.inst⟩ :=
    ⟨.old, id⟩
  refine ⟨_, _, run, run', fills, fills', ?_⟩
  exact {
    declared := body.declared.complete fills.toCompletes fills'.toCompletes
    function := ⟨_, _, listed, listed', name, List.rel_append (blocks.imp fun _ _ => .old)
      (.cons .new .nil)⟩
    block := by
      rintro id other (related | ⟨rfl, rfl⟩)
      · obtain ⟨bound, bound'⟩ := body.block_bound related
        rw [frame.block id (Nat.not_le_of_lt bound), frame'.block other (Nat.not_le_of_lt bound')]
        exact body.block related
      · exact ⟨_, _, new, new', ⟨rfl, rfl⟩, rfl, .nil⟩
    inst := fun {id other} related => by
      obtain ⟨bound, bound'⟩ := body.inst_bound related
      rw [frame.inst id (Nat.not_le_of_lt bound), frame'.inst other (Nat.not_le_of_lt bound')]
      refine (body.inst related).imp (.mono ?_)
      exact matching_le fills.later fills'.later body.declared.twins.types le
    uniqueBlock := biUnique_withPair body.uniqueBlock fun related =>
      ⟨fun same => Nat.ne_of_lt (body.block_bound related).1 (congrArg BlockId.index same),
        fun same => Nat.ne_of_lt (body.block_bound related).2 (congrArg BlockId.index same)⟩
    uniqueInst := body.uniqueInst }

/-- Two blocks that stand for each other get an instruction. -/
theorem addInst (body : SameBody locals f g p q) {block other : BlockId}
    (related : locals.block block other) {kind kind' : InstKind} {type type' : TypeId}
    (kinds : kind.Alike (Types.SameTerm p.types q.types) kind')
    (typed : Types.SameTerm p.types q.types type type') (name : Option String) :
    BothOk (fun a b => p.Fills a.2 ∧ q.Fills b.2
      ∧ SameBody ⟨locals.block, WithPair locals.inst a.1 b.1⟩ f g a.2 b.2)
      (p.addInst block kind type [] name) (q.addInst other kind' type' [] name) := by
  obtain ⟨owner, owner', found, there, func, label, insts⟩ := body.block related
  obtain ⟨⟨id, p'⟩, run⟩ := exists_addInst found kind type name
  obtain ⟨⟨id', q'⟩, run'⟩ := exists_addInst there kind' type' name
  have fills := fills_addInst run
  have fills' := fills_addInst run'
  obtain ⟨rfl, ⟨_, again, listed⟩, new, frame⟩ := addInst_frame run
  obtain ⟨rfl, ⟨_, again', listed'⟩, new', frame'⟩ := addInst_frame run'
  cases found.symm.trans again
  cases there.symm.trans again'
  -- the new pair is in the relation already when the block is looked at
  have le : locals.Le ⟨locals.block, WithPair locals.inst ⟨p.insts.size⟩ ⟨q.insts.size⟩⟩ :=
    ⟨id, .old⟩
  have larger := matching_le fills.later fills'.later body.declared.twins.types le
  refine ⟨_, _, run, run', fills, fills', ?_⟩
  exact {
    declared := body.declared.complete fills.toCompletes fills'.toCompletes
    function := by
      rw [frame.function f False.elim, frame'.function g False.elim]
      exact body.function
    block := fun {id other'} known => by
      by_cases same : id = block
      · subst same
        obtain rfl := body.uniqueBlock.2 known related
        exact ⟨_, _, listed, listed', func, label, List.rel_append (insts.imp fun _ _ => .old)
          (.cons .new .nil)⟩
      -- blocks are related one to one, so another block on one side is another block on the other
      · have apart : other' ≠ other := fun same' =>
          same (body.uniqueBlock.1 (same' ▸ known) related)
        rw [frame.block id (mt List.mem_singleton.mp same),
          frame'.block other' (mt List.mem_singleton.mp apart)]
        exact (body.block known).imp fun ⟨func, label, insts⟩ =>
          ⟨func, label, insts.imp fun _ _ => .old⟩
    inst := by
      rintro id other (known | ⟨rfl, rfl⟩)
      · obtain ⟨bound, bound'⟩ := body.inst_bound known
        rw [frame.inst id (Nat.not_le_of_lt bound), frame'.inst other (Nat.not_le_of_lt bound')]
        exact (body.inst known).imp (.mono larger)
      · exact ⟨_, _, new, new', kinds.imp larger.type, larger.type typed, .nil, rfl, related⟩
    uniqueBlock := body.uniqueBlock
    uniqueInst := biUnique_withPair body.uniqueInst fun related =>
      ⟨fun same => Nat.ne_of_lt (body.inst_bound related).1 (congrArg InstId.index same),
        fun same => Nat.ne_of_lt (body.inst_bound related).2 (congrArg InstId.index same)⟩ }

/-- Two instructions that stand for each other are replaced. -/
theorem setInst (body : SameBody locals f g p q) {id other : InstId}
    (related : locals.inst id other) {inst inst' later later' : Inst} (found : p.inst id = .ok inst)
    (there : q.inst other = .ok inst')
    (same : p' = { p with insts := p.insts.setIfInBounds id.index later })
    (same' : q' = { q with insts := q.insts.setIfInBounds other.index later' })
    (alike : later.Corresponds (p.matching q locals) later') :
    p.Fills p' ∧ q.Fills q' ∧ SameBody locals f g p' q' := by
  obtain ⟨new, frame⟩ := setInst_frame found same
  obtain ⟨new', frame'⟩ := setInst_frame there same'
  have fills : p.Fills p' := by
    rw [same]
    exact fills_bodies _ _
  have fills' : q.Fills q' := by
    rw [same']
    exact fills_bodies _ _
  have larger := body.mono fills fills'
  refine ⟨fills, fills', body.declared.complete fills.toCompletes fills'.toCompletes, ?_,
    fun {id other} known => ?_, fun {id' other'} known => ?_, body.uniqueBlock, body.uniqueInst⟩
  · rw [frame.function f False.elim, frame'.function g False.elim]
    exact body.function
  · rw [frame.block id False.elim, frame'.block other False.elim]
    exact body.block known
  · by_cases here : id' = id
    · subst here
      obtain rfl := body.uniqueInst.2 known related
      exact ⟨_, _, new, new', alike.mono larger⟩
    · have apart : other' ≠ other := fun same' =>
        here (body.uniqueInst.1 (same' ▸ known) related)
      rw [frame.inst id' here, frame'.inst other' apart]
      exact (body.inst known).imp (.mono larger)

/-- An instruction gets its type, in both functions. -/
theorem setInstType (body : SameBody locals f g p q) {id other : InstId}
    (related : locals.inst id other) {type type' : TypeId}
    (typed : Types.SameTerm p.types q.types type type') :
    BothOk (fun p' q' => p.Fills p' ∧ q.Fills q' ∧ SameBody locals f g p' q')
      (p.setInstType id type) (q.setInstType other type') := by
  obtain ⟨inst, inst', found, there, alike⟩ := body.inst related
  refine ⟨_, _, by rw [Program.setInstType, found]; rfl, by rw [Program.setInstType, there]; rfl,
    body.setInst related found there rfl rfl ?_⟩
  exact ⟨alike.kind, typed, alike.operands, alike.name, alike.block⟩

/-- An instruction gets its operands, in both functions. -/
theorem setOperands (body : SameBody locals f g p q) {id other : InstId}
    (related : locals.inst id other) {operands operands' : List Operand}
    (used : List.Forall₂ (Operand.Corresponds (p.matching q locals)) operands operands') :
    BothOk (fun p' q' => p.Fills p' ∧ q.Fills q' ∧ SameBody locals f g p' q')
      (p.setOperands id operands) (q.setOperands other operands') := by
  obtain ⟨inst, inst', found, there, alike⟩ := body.inst related
  refine ⟨_, _, by rw [Program.setOperands, found]; rfl, by rw [Program.setOperands, there]; rfl,
    body.setInst related found there rfl rfl ?_⟩
  exact ⟨alike.kind, alike.type, used, alike.name, alike.block⟩

end SameBody

end Program

end IrStream
