import IrStream.Proofs.Document.OperandText
import IrStream.Proofs.Document.Phases
import IrStream.Proofs.Program.Arranged

/-!
# What names stand for

While the body of a function is loaded, a scope has exactly the names of the arguments and the
instructions of the function and the labels of its blocks (`Scope.Describes`).  Opening the body
puts them there, each once (`Scope.Adds`), and no round changes a name.

So a name of a value stands for what bears that name in the function.  A symbol and a label are
looked up without any of the marks that they begin with: `@@f` stands for what is called `f`, and a
name that itself begins with a mark cannot be referred to.

The statement at the end (`names_resolve`) is exact in both directions.  A name is resolved to an
operand if and only if the operand bears it, and if nothing bears it, the error says so.  That needs
more than that look-ups are sound: the scope must have no name too many, and no name may hide
another one.

* **Completeness of a scope.**  `Scope.Adds` lists what is brought into a scope, in order, each with
  the name that it may have.  It says for every name what the larger scope answers, and its
  transitivity turns the nest of loops that opens a body into one list.
* **The list is that of the function.**  `bears_arg_iff`, `bears_inst_iff` and `labels_iff` say that
  what stands in the list is what bears a name in the program, so `describes_openBody` follows.
* **Rounds.**  A round sets operands and a type, and names are neither.
* **The texts.**  `Loader.Fetches` is the form of the four answers, one for each sort of mark, and
  `bare` is what is left of a name when its marks are taken away.
-/

set_option autoImplicit false

namespace IrStream

namespace Program

variable (program : Program)

/-- An argument or an instruction of the function has that name. -/
def Bears (func : FuncId) (name : String) : Operand → Prop
  | .arg id => ∃ arg, program.arg id = .ok arg ∧ arg.func = func ∧ arg.name = some name
  | .inst id => program.ownerOfInst id = .ok func
      ∧ ∃ inst, program.inst id = .ok inst ∧ inst.name = some name
  | _ => False

/-- A block of the function has that label. -/
def Labels (func : FuncId) (label : String) (id : BlockId) : Prop :=
  ∃ block, program.block id = .ok block ∧ block.func = func ∧ block.label = some label

/-- The constant is the address of the global or the function with that name. -/
inductive IsSymbol (name : String) : Constant → Prop
  | global {id : GlobalId} {entry : Global} (found : program.global id = .ok entry)
      (named : entry.name = name) : IsSymbol name (.global id)
  | function {id : FuncId} {entry : Function} (found : program.function id = .ok entry)
      (named : entry.name = name) : IsSymbol name (.function id)

end Program

/-- The scope has the names of the function, and no other ones. -/
structure Scope.Describes (program : Program) (func : FuncId) (scope : Scope) : Prop where
  /-- The name of the function is kept for messages. -/
  function : ∃ function, program.function func = .ok function ∧ function.name = scope.function
  /-- A name is looked up among arguments and results. -/
  value : ∀ name operand,
    scope.values.lookup name = some operand ↔ program.Bears func name operand
  /-- Labels are a space of names of their own. -/
  block : ∀ label id, scope.blocks.lookup label = some id ↔ program.Labels func label id

/-! ## Building scopes

A name is defined once or loading fails, and so a new name hides none.  Without that the order of
definitions would matter. -/

/-- Some values and blocks, each with the name that it may have, are brought into a scope. -/
structure Scope.Adds (scope after : Scope) (values : List (Option String × Operand))
    (blocks : List (Option String × BlockId)) : Prop where
  function : after.function = scope.function
  value : ∀ name operand, after.values.lookup name = some operand ↔
    scope.values.lookup name = some operand ∨ (some name, operand) ∈ values
  block : ∀ label id, after.blocks.lookup label = some id ↔
    scope.blocks.lookup label = some id ∨ (some label, id) ∈ blocks

/-- A new name is found, and it hides no other one. -/
theorem lookup_cons_of_free {α : Type} {entries : List (String × α)} {name : String} {value : α}
    (free : (entries.lookup name).isSome = false) (other : String) (found : α) :
    ((name, value) :: entries).lookup other = some found ↔
      entries.lookup other = some found ∨ (some other, found) ∈ [(some name, value)] := by
  rw [Option.isSome_eq_false_iff, Option.isNone_iff_eq_none] at free
  rw [List.lookup_cons, List.mem_singleton, Prod.mk.injEq, Option.some.injEq]
  by_cases same : other = name
  · subst same
    simp [free, eq_comm]
  · rw [beq_false_of_ne same]
    simp [same]

namespace Scope

variable {scope mid after : Scope} {values more : List (Option String × Operand)}
  {blocks others : List (Option String × BlockId)}

/-- Nothing is brought into the scope. -/
theorem Adds.refl (scope : Scope) : scope.Adds scope [] [] where
  function := rfl
  value := by simp
  block := by simp

/-- What is brought into the scope in two steps. -/
theorem Adds.trans (first : scope.Adds mid values blocks) (second : mid.Adds after more others) :
    scope.Adds after (values ++ more) (blocks ++ others) where
  function := second.function.trans first.function
  value name operand := by rw [second.value, first.value, List.mem_append, or_assoc]
  block label id := by rw [second.block, first.block, List.mem_append, or_assoc]

/-- A value that is defined is added. -/
theorem adds_defineValue {name : String} {value : Operand}
    (run : scope.defineValue name value = .ok after) :
    scope.Adds after [(some name, value)] [] := by
  rw [defineValue] at run
  split at run
  · cases run
  · next free =>
    cases run
    exact ⟨rfl, lookup_cons_of_free (Bool.not_eq_true _ ▸ free), by simp⟩

/-- A block that is defined is added. -/
theorem adds_defineBlock {label : String} {block : BlockId}
    (run : scope.defineBlock label block = .ok after) :
    scope.Adds after [] [(some label, block)] := by
  rw [defineBlock] at run
  split at run
  · cases run
  · next free =>
    cases run
    exact ⟨rfl, by simp, lookup_cons_of_free (Bool.not_eq_true _ ▸ free)⟩

/-- What has no name may as well be brought into the scope. -/
theorem adds_unnamed {value : Operand} : scope.Adds scope [(none, value)] [] :=
  ⟨rfl, by simp, by simp⟩

/-- A block without a label may as well be brought into the scope. -/
theorem adds_unlabelled {block : BlockId} : scope.Adds scope [] [(none, block)] :=
  ⟨rfl, by simp, by simp⟩

end Scope

namespace Loader

open Program

variable {p q : Program} {scope after : Scope}

/-- An argument enters the scope under its name, if it has one. -/
theorem adds_scopeArg {id : ArgId} (run : Yields (scopeArg scope id) p after q) :
    ∃ arg, p.arg id = .ok arg ∧ scope.Adds after [(arg.name, .arg id)] [] := by
  obtain ⟨-, arg, found, defined⟩ := scopeArg_steps run
  refine ⟨arg, found, ?_⟩
  split at defined
  · next named =>
    rw [named]
    exact Scope.adds_defineValue defined
  · next unnamed =>
    cases defined
    rw [unnamed]
    exact Scope.adds_unnamed

/-- The named arguments of a function are brought into scope. -/
theorem adds_scopeArgs {args : List ArgId}
    (run : Yields (args.foldlM scopeArg scope) p after q) :
    ∃ values, scope.Adds after values [] ∧ ∀ name operand, (name, operand) ∈ values ↔
      ∃ id ∈ args, operand = .arg id ∧ ∃ arg, p.arg id = .ok arg ∧ arg.name = name := by
  induction args generalizing scope p with
  | nil =>
    cases (yields_pure_iff.mp run).1
    exact ⟨[], .refl _, by simp⟩
  | cons id rest ih =>
    rw [List.foldlM_cons, yields_bind_iff] at run
    obtain ⟨larger, r, first, others⟩ := run
    obtain ⟨arg, found, one⟩ := adds_scopeArg first
    cases (scopeArg_steps first).1
    obtain ⟨values, more, known⟩ := ih others
    refine ⟨_, one.trans more, fun name operand => ?_⟩
    rw [List.singleton_append, List.mem_cons, known, List.exists_mem_cons_iff, Prod.mk.injEq]
    simp [found, eq_comm, and_comm]

/-- A block enters the scope under its label, if it has one. -/
theorem adds_scopeWithBlock {label : Option String} {id : BlockId}
    (defined : scopeWithBlock scope label id = .ok after) : scope.Adds after [] [(label, id)] := by
  cases label with
  | some label => exact Scope.adds_defineBlock defined
  | none =>
    cases defined
    exact Scope.adds_unlabelled

/-- The labels of the blocks come into scope in the order of the blocks. -/
theorem adds_addBlocks {func : FuncId} {entries : List BlockEntry}
    {blocks : List (BlockId × BlockEntry)}
    (run : Yields (addBlocks func scope entries) p (after, blocks) q) :
    scope.Adds after [] (blocks.map fun block => (block.2.label, block.1)) := by
  induction entries generalizing p scope blocks with
  | nil =>
    cases (yields_pure_iff.mp run).1
    exact .refl _
  | cons entry entries ih =>
    obtain ⟨id, r, larger, more, added, defined, others, rfl⟩ := addBlocks_cons run
    exact (adds_scopeWithBlock defined).trans (ih others)

/-- So does an instruction, before anything is known of its result. -/
theorem adds_addInst {block : BlockId} {entry : InstEntry} {id : InstId}
    (run : Yields (addInst block scope entry) p (after, id) q) :
    scope.Adds after [(entry.name, .inst id)] [] := by
  obtain ⟨kind, type, r, s, -, -, -, defined⟩ := addInst_steps run
  cases named : entry.name with
  | some name =>
    rw [named] at defined
    exact Scope.adds_defineValue defined
  | none =>
    rw [named] at defined
    cases defined
    exact Scope.adds_unnamed

/-- Instructions, with the names in their entries. -/
def namedInsts (insts : List (InstId × InstEntry)) : List (Option String × Operand) :=
  insts.map fun inst => (inst.2.name, .inst inst.1)

/-- The results of a block come into scope in the order of its instructions. -/
theorem adds_addInsts {block : BlockId} {entries : List InstEntry}
    {insts : List (InstId × InstEntry)}
    (run : Yields (addInsts block scope entries) p (after, insts) q) :
    scope.Adds after (namedInsts insts) [] := by
  induction entries generalizing p scope insts with
  | nil =>
    cases (yields_pure_iff.mp run).1
    exact .refl _
  | cons entry entries ih =>
    rw [addInsts] at run
    simp only [yields_bind_iff, yields_pure_iff] at run
    obtain ⟨⟨larger, id⟩, r, first, ⟨_, more⟩, _, others, same, rfl⟩ := run
    cases same
    exact (adds_addInst first).trans (ih others)

/-- The results of all blocks come into scope, one block behind the other. -/
theorem adds_fillBlocks {blocks : List (BlockId × BlockEntry)} {insts : List (InstId × InstEntry)}
    (run : Yields (fillBlocks scope blocks) p (after, insts) q) :
    scope.Adds after (namedInsts insts) [] := by
  induction blocks generalizing p scope insts with
  | nil =>
    cases (yields_pure_iff.mp run).1
    exact .refl _
  | cons block blocks ih =>
    obtain ⟨id, entry⟩ := block
    rw [fillBlocks] at run
    simp only [yields_bind_iff, yields_pure_iff] at run
    obtain ⟨⟨larger, own⟩, r, first, ⟨_, more⟩, _, others, same, rfl⟩ := run
    cases same
    have all := (adds_addInsts first).trans (ih others)
    rwa [namedInsts, namedInsts, ← List.map_append] at all

/-! ## Scopes of functions

The scope knows only what loading has put there, and the program has every argument, block and
instruction of every function.  That the two agree uses that the program is built: what a function
lists is what says that it belongs to the function. -/

/-- The instructions of a function are those that its blocks list. -/
theorem mem_flatMap_instsOf (built : p.Built) {func : FuncId} {id : InstId} :
    id ∈ (p.blocksOf func).flatMap p.instsOf ↔ p.ownerOfInst id = .ok func := by
  rw [List.mem_flatMap, ownerOfInst_eq_ok_iff]
  constructor
  · rintro ⟨block, listed, mem⟩
    obtain ⟨stored, there, -⟩ := mem_instsOf_iff.mp mem
    obtain ⟨inst, found⟩ := built.arranged.listedInst block id mem
    cases (built.mem_instsOf found).mp mem
    exact ⟨inst, stored, found, there, ((built.mem_blocksOf there).mp listed).symm⟩
  · rintro ⟨inst, block, found, there, rfl⟩
    exact ⟨inst.block, (built.mem_blocksOf there).mpr rfl, (built.mem_instsOf found).mpr rfl⟩

/-- The arguments of a function that have a name. -/
theorem bears_arg_iff (built : p.Built) {func : FuncId} {function : Function}
    (found : p.function func = .ok function) {name : String} {id : ArgId} :
    p.Bears func name (.arg id) ↔
      id ∈ function.args ∧ ∃ arg, p.arg id = .ok arg ∧ arg.name = some name := by
  have listed {arg : Arg} (there : p.arg id = .ok arg) : id ∈ function.args ↔ func = arg.func := by
    rw [← built.mem_argsOf there, mem_argsOf_iff]
    simp [found]
  constructor
  · rintro ⟨arg, there, owner, named⟩
    exact ⟨(listed there).mpr owner.symm, arg, there, named⟩
  · rintro ⟨mem, arg, there, named⟩
    exact ⟨arg, there, ((listed there).mp mem).symm, named⟩

/-- The instructions of a function that have a name, while its body is open.  They have the
names of their entries by then. -/
theorem bears_inst_iff {func : FuncId} {insts : List (InstId × InstEntry)}
    (pending : p.Pending func insts)
    (order : insts.map (·.1) = (p.blocksOf func).flatMap p.instsOf) {name : String} {id : InstId} :
    p.Bears func name (.inst id) ↔ ∃ inst ∈ insts, inst.2.name = some name ∧ inst.1 = id := by
  constructor
  · rintro ⟨owner, stored, there, named⟩
    have mem := (mem_flatMap_instsOf pending.draft.built).mpr owner
    rw [← order] at mem
    obtain ⟨inst, here, rfl⟩ := List.mem_map.mp mem
    obtain ⟨_, again, same⟩ := pending.name inst here
    cases there.symm.trans again
    exact ⟨inst, here, same.symm.trans named, rfl⟩
  · rintro ⟨inst, mem, named, rfl⟩
    obtain ⟨stored, there, same⟩ := pending.name inst mem
    exact ⟨pending.owner inst mem, stored, there, same.trans named⟩

/-- The blocks of a function that have a label.  Labels are in the blocks themselves, so this reads
them off the arena. -/
theorem labels_iff (built : p.Built) {func : FuncId} {blocks : List (BlockId × BlockEntry)}
    (listed : p.blocksOf func = blocks.map (·.1))
    (bodies : ∀ block ∈ blocks, ∃ insts, p.block block.1 = .ok ⟨func, block.2.label, insts⟩)
    {label : String} {id : BlockId} :
    p.Labels func label id ↔ ∃ block ∈ blocks, block.2.label = some label ∧ block.1 = id := by
  constructor
  · rintro ⟨stored, there, owner, labelled⟩
    have mem := (built.mem_blocksOf there).mpr owner.symm
    rw [listed] at mem
    obtain ⟨block, here, rfl⟩ := List.mem_map.mp mem
    obtain ⟨insts, again⟩ := bodies block here
    cases there.symm.trans again
    exact ⟨block, here, labelled, rfl⟩
  · rintro ⟨block, mem, labelled, rfl⟩
    obtain ⟨insts, there⟩ := bodies block mem
    exact ⟨_, there, rfl, labelled⟩

/-- **Opening a body brings all names of the function into scope**, and nothing else.  Arguments,
blocks and instructions are brought in one after the other; each adds its names and keeps those that
were there. -/
theorem describes_openBody {func : FuncId} {entry : FunctionEntry}
    {insts : List (InstId × InstEntry)}
    (run : Yields (openBody (func, entry)) p (after, insts) q) (declares : p.Declares func entry)
    (built : p.Built) (pending : q.Pending func insts) : after.Describes q func := by
  obtain ⟨-, order⟩ := openBody_order run declares
  have kept := keepsValues_openBody run
  obtain ⟨function, found, named, empty⟩ := declares
  obtain ⟨_, scope, r, larger, blocks, s, again, args, added, filled⟩ := openBody_steps run
  cases found.symm.trans again
  obtain ⟨values, one, known⟩ := adds_scopeArgs args
  cases eq_of_scopeArgs args
  have all := (one.trans (adds_addBlocks added)).trans (adds_fillBlocks filled)
  obtain ⟨-, distinct, new, listed, -⟩ := addBlocks_spec added found
  obtain ⟨-, bodies, frame⟩ := fillBlocks_spec filled distinct fun block mem => (new block mem).2
  have whole := (frame.function func False.elim).trans listed
  -- a name is that of an argument or of an instruction; labels are names of another kind
  refine ⟨⟨_, whole, named.trans all.function.symm⟩, fun name operand => ?_, fun label id => ?_⟩
  · rw [all.value, List.append_nil, List.mem_append, known, namedInsts, List.mem_map]
    simp only [Scope.ofFunction, List.lookup_nil, reduceCtorEq, false_or, Prod.mk.injEq]
    cases operand with
    | arg id =>
      have same : q.Bears func name (.arg id) ↔ p.Bears func name (.arg id) := by
        rw [Bears, Bears, Program.arg, Program.arg, kept.args]
      rw [same, bears_arg_iff built found]
      simp
    | inst id =>
      rw [bears_inst_iff pending order]
      simp
    | const | block | text => simp [Bears]
  · rw [all.block, List.append_nil, List.nil_append, List.mem_map]
    simp only [Scope.ofFunction, List.lookup_nil, reduceCtorEq, false_or, Prod.mk.injEq]
    have blocksOf : q.blocksOf func = blocks.map (·.1) := by
      rw [blocksOf_of_function whole, empty, List.nil_append]
    have stored (block) (mem : block ∈ blocks) :
        ∃ insts, q.block block.1 = .ok ⟨func, block.2.label, insts⟩ := by
      obtain ⟨own, -, -, there⟩ := bodies block mem
      exact ⟨_, there⟩
    rw [labels_iff pending.draft.built blocksOf stored]

/-- Opening a body needs its function.  It is what an error says a name is missing in. -/
theorem function_openBody {func : FuncId} {entry : FunctionEntry}
    {insts : List (InstId × InstEntry)} (run : Yields (openBody (func, entry)) p (after, insts) q) :
    after.function = entry.name := by
  obtain ⟨function, scope, r, larger, blocks, s, -, args, added, filled⟩ := openBody_steps run
  obtain ⟨values, one, -⟩ := adds_scopeArgs args
  exact ((one.trans (adds_addBlocks added)).trans (adds_fillBlocks filled)).function

/-- A round changes no name.  It changes operands and a type, neither of which is looked at here. -/
theorem describes_finishInst {func : FuncId} {inst : InstId × InstEntry}
    (describes : scope.Describes p func) (keeps : p.Keeps q)
    (run : Yields (finishInst scope inst) p () q) : scope.Describes q func := by
  obtain ⟨id, entry⟩ := inst
  have frame := (finishInst_spec run).1
  have kept := keepsValues_finishInst run
  obtain ⟨inst, _, _, _, found, -⟩ := finishInst_eq_ok run
  have blocks (block : BlockId) : q.block block = p.block block := frame.block block False.elim
  have old {other : InstId} {later : Inst} (there : q.inst other = .ok later) :
      ∃ inst, p.inst other = .ok inst ∧ later.name = inst.name ∧ later.block = inst.block := by
    by_cases same : other = id
    · subst same
      obtain ⟨_, again, name, block⟩ := keeps.inst found
      cases there.symm.trans again
      exact ⟨inst, found, name, block⟩
    · exact ⟨later, (frame.inst other same).symm.trans there, rfl, rfl⟩
  refine ⟨?_, fun name operand => ?_, fun label block => ?_⟩
  · rw [frame.function func False.elim]
    exact describes.function
  · rw [describes.value]
    cases operand with
    | arg id => rw [Bears, Bears, Program.arg, Program.arg, kept.args]
    | inst other =>
      constructor
      · rintro ⟨owner, inst, there, named⟩
        obtain ⟨later, there, name, -⟩ := keeps.inst there
        exact ⟨keeps.ownerOfInst owner, later, there, name.trans named⟩
      · rintro ⟨owner, later, there, named⟩
        obtain ⟨inst, found, name, block⟩ := old there
        obtain ⟨_, stored, again, known, owned⟩ := ownerOfInst_eq_ok_iff.mp owner
        cases there.symm.trans again
        rw [blocks, block] at known
        exact ⟨ownerOfInst_eq_ok_iff.mpr ⟨inst, stored, found, known, owned⟩, inst, found,
          name.symm.trans named⟩
    | const | block | text => exact Iff.rfl
  · rw [describes.block, Labels, Labels, blocks]

end Loader

/-- The scope knows of which function it is. -/
theorem Document.Reaches.function {document : Document} {func : FuncId} {entry : FunctionEntry}
    {scope : Scope} {done todo : List (InstId × InstEntry)} {program : Program}
    (reached : document.Reaches func entry scope done todo program) :
    scope.function = entry.name := by
  induction reached with
  | opens _ _ opened => exact Loader.function_openBody opened
  | finish _ _ ih => exact ih

/-- **In the scope are the names of the function** wherever loading gets to.  It is so when the body
is opened, and each round keeps it. -/
theorem Document.Reaches.describes {document : Document} {func : FuncId} {entry : FunctionEntry}
    {scope : Scope} {done todo : List (InstId × InstEntry)} {program : Program}
    (reached : document.Reaches func entry scope done todo program) :
    scope.Describes program func := by
  induction reached with
  | opens declared earlier opened =>
    obtain ⟨draft, none⟩ := Loader.declare_draft declared
    obtain ⟨draft, named⟩ :=
      Loader.defineFunctions_named draft (Loader.namesResults_of_empty none) earlier
    exact Loader.describes_openBody opened (declares_of_earlier declared earlier) draft.built
      (Loader.openBody_pending draft named opened).2.2
  | finish reached round ih =>
    obtain ⟨pending, offered⟩ := reached.pending
    exact Loader.describes_finishInst ih (Loader.finishInst_pending pending offered round).1 round

/-- Nothing that resolving adds has to do with names.  It interns types and constants. -/
theorem Scope.Describes.grows {p q : Program} {func : FuncId} {scope : Scope}
    (describes : scope.Describes p func) (grows : p.Grows q) : scope.Describes q func := by
  induction grows with
  | refl => exact describes
  | readText _ _ ih | func _ _ _ _ ih | internConstant _ _ ih =>
    exact ⟨ih.function, ih.value, ih.block⟩

/-- What an operand of a function is looked up in: the program behind the operands in front of it,
and the names of the function.  Operands of one instruction are resolved one after the other, so
those in front may have added constants. -/
theorem Document.Reaches.resolves {document : Document} {func : FuncId} {entry : FunctionEntry}
    {scope : Scope} {done todo : List (InstId × InstEntry)} {before program : Program}
    (reached : document.Reaches func entry scope done todo before) {nodes : List OperandNode}
    {operands : List Operand}
    (resolved : Loader.Yields (nodes.mapM (Loader.operandOf scope)) before operands program) :
    program.Built ∧ scope.Describes program func :=
  ⟨(Loader.ensures_mapM_operandOf reached.draft reached.pending.2 nodes resolved).1.draft.built,
    reached.describes.grows
      ((Loader.Resolves.mapM (Loader.resolves_operandOf scope) nodes).grows resolved)⟩

/-! ## Looking names up

There is no text in which the name of a value loses more than its mark, while `@` and `%` are taken
from the front of symbols and labels for as long as there are any. -/

/-- The step answers what is expected, and fails for a reason if nothing is. -/
structure Loader.Fetches (step : Loader Operand) (program : Program)
    (expected : Operand → Program → Prop) (otherwise : ProgramError) : Prop where
  /-- What the step answers, and the program it leaves. -/
  yields_iff : ∀ operand after, Loader.Yields step program operand after ↔ expected operand after
  /-- There is one error only. -/
  fails : (∀ operand after, ¬ expected operand after) → step.run program = .error otherwise

/-- A name without the marks that it begins with.  The loader strips all of them, not only the
first. -/
def bare (mark : Char) (name : List Char) : String :=
  String.ofList (name.dropWhile (· == mark))

/-- Only a name that begins with a mark loses something.  So for the names that compilers write the
two look-ups are alike. -/
theorem bare_of_head?_ne {mark : Char} {name : List Char} (unmarked : name.head? ≠ some mark) :
    bare mark name = String.ofList name := by
  rw [bare, dropWhile_eq_self_iff_head.mpr fun c mem => ?_]
  exact beq_false_of_ne fun same => unmarked (same ▸ mem)

/-- What the look-up of a symbol finds.  A name belongs to one of the two, so it makes no difference
that globals are asked first. -/
theorem Program.Built.symbol_iff {program : Program} (built : program.Built) {name : String}
    {constant : Constant} : program.IsSymbol name constant ↔
      match program.findGlobal? name with
      | some id => constant = .global id
      | none => ∃ id, program.findFunction? name = some id ∧ constant = .function id := by
  have arranged := built.arranged
  split
  · next id found =>
    obtain ⟨entry, there, named⟩ := (arranged.findGlobal name id).mp found
    constructor
    · rintro (⟨there', named'⟩ | ⟨there', named'⟩)
      · have again := (arranged.findGlobal name _).mpr ⟨_, there', named'⟩
        cases found.symm.trans again
        rfl
      · -- globals and functions have no name in common
        have apart := (List.nodup_append.mp built.distinct).2.2
        have inGlobals := List.mem_map_of_mem (f := (·.name))
          (Array.mem_toList_iff.mpr (Array.mem_of_getElem? (global_eq_ok_iff.mp there)))
        have inFunctions := List.mem_map_of_mem (f := (·.name))
          (Array.mem_toList_iff.mpr (Array.mem_of_getElem? (function_eq_ok_iff.mp there')))
        exact absurd (named.trans named'.symm) (apart _ inGlobals _ inFunctions)
    · rintro rfl
      exact .global there named
  · next none =>
    constructor
    · rintro (⟨there, named⟩ | ⟨there, named⟩)
      · have found := (arranged.findGlobal name _).mpr ⟨_, there, named⟩
        cases none.symm.trans found
      · exact ⟨_, (arranged.findFunction name _).mpr ⟨_, there, named⟩, rfl⟩
    · rintro ⟨id, found, rfl⟩
      obtain ⟨entry, there, named⟩ := (arranged.findFunction name id).mp found
      exact .function there named

namespace Loader

open Program

variable {program : Program} {func : FuncId} {scope : Scope} {name : List Char}

/-- A step without effect fetches what it answers.  It is enough that the answer is the only one
that is expected. -/
theorem fetches_pure {value : Operand} {error : ProgramError} {expected : Operand → Prop}
    (only : ∀ operand, expected operand ↔ operand = value) :
    Fetches (pure value) program (fun operand after => expected operand ∧ after = program)
      error where
  yields_iff operand after := by rw [yields_pure_iff, only]
  fails nothing := absurd ⟨(only value).mpr rfl, rfl⟩ (nothing value program)

/-- A step that fails fetches what nothing is.  The error does not depend on why there is nothing.
-/
theorem fetches_throw {error : ProgramError} {expected : Operand → Prop}
    (none : ∀ operand, ¬ expected operand) :
    Fetches (throw error) program (fun operand after => expected operand ∧ after = program)
      error where
  yields_iff operand after := by
    rw [yields_throw_iff]
    exact ⟨False.elim, fun answer => none operand answer.1⟩
  fails _ := rfl

/-- A name of a value is looked up as it is written.  Blanks behind the name would be cut off, so
the name has none. -/
theorem fetches_value (ends : trimEnd name = name) :
    Fetches (operandOfText scope ('%' :: name)) program
      (fun operand after => scope.values.lookup (String.ofList name) = some operand
        ∧ after = program)
      (.unknownValue scope.function (String.ofList name)) := by
  rw [operandOfText_name (.inl rfl) ends, named_local]
  cases found : scope.values.lookup (String.ofList name) with
  | some value => exact fetches_pure fun operand => by rw [Option.some.injEq, eq_comm]
  | none => exact fetches_throw nofun

/-- A value is what bears the name. -/
theorem fetches_local (describes : scope.Describes program func) (trimmed : trim name = name) :
    Fetches (operandOfText scope ('%' :: name)) program
      (fun operand after => program.Bears func (String.ofList name) operand ∧ after = program)
      (.unknownValue scope.function (String.ofList name)) := by
  simp only [← describes.value]
  exact fetches_value (trimEnd_of_trim trimmed)

/-- A label is looked up without its marks.  The word in front of it says that a block is meant, and
then no value is looked up. -/
theorem fetches_label (describes : scope.Describes program func) (trimmed : trim name = name) :
    Fetches (operandOfText scope ("label %".toList ++ name)) program
      (fun operand after => (∃ id, program.Labels func (bare '%' name) id ∧ operand = .block id)
        ∧ after = program)
      (.unknownBlock scope.function (bare '%' name)) := by
  rw [operandOfText_label trimmed, ← bare]
  cases found : scope.blocks.lookup (bare '%' name) with
  | some block =>
    refine fetches_pure fun operand => ?_
    simp only [← describes.block, found, Option.some.injEq, exists_eq_left']
  | none =>
    refine fetches_throw fun operand => ?_
    rintro ⟨id, labels, -⟩
    rw [← describes.block, found] at labels
    cases labels

/-- Where only one symbol is expected, to add that constant is to answer it.  The program afterwards
is the one that interning the constant leaves. -/
theorem fetches_constant {step : Loader Operand} {only : Constant} {expected : Constant → Prop}
    {error : ProgramError} (run : step.run program = (constant only).run program)
    (stands : ∀ symbol, expected symbol ↔ symbol = only) :
    Fetches step program (fun operand after => ∃ symbol, expected symbol
      ∧ Yields (constant symbol) program operand after) error where
  yields_iff operand after := by
    rw [Yields, run]
    simp [stands, Yields]
  fails nothing := by
    have answers : Yields (constant only) program (.const (program.internConstant only).1)
        (program.internConstant only).2 := yields_update_iff.mpr rfl
    exact absurd ⟨only, (stands only).mpr rfl, answers⟩ (nothing _ _)

/-- A symbol is looked up without its marks, among the globals and the functions.  The constant is
the address of what has the name. -/
theorem fetches_symbol (built : program.Built) (trimmed : trim name = name) :
    Fetches (operandOfText scope ('@' :: name)) program
      (fun operand after => ∃ symbol, program.IsSymbol (bare '@' name) symbol
        ∧ Yields (constant symbol) program operand after)
      (.unknownSymbol (bare '@' name)) := by
  have run := @run_named_symbol scope name program
  rw [← bare] at run
  have stands (symbol : Constant) := @Built.symbol_iff program built (bare '@' name) symbol
  rw [operandOfText_name (.inr rfl) (trimEnd_of_trim trimmed)]
  cases global : program.findGlobal? (bare '@' name) with
  | some id =>
    rw [global] at run
    simp only [global] at stands
    exact fetches_constant run stands
  | none =>
    rw [global] at run
    simp only [global] at stands
    cases function : program.findFunction? (bare '@' name) with
    | some id =>
      rw [function] at run
      simp only [function, Option.some.injEq, exists_eq_left'] at stands
      exact fetches_constant run stands
    | none =>
      rw [function] at run
      simp only [function] at stands
      refine ⟨fun operand after => ?_, fun _ => run⟩
      rw [Yields, run]
      simp [stands]

end Loader

/-- **Names stand for what bears them**, but for the marks in front of symbols and labels: of these
all are taken away, not only the one that tells what is meant.  Values, symbols and labels are
looked up in spaces of their own, and a name that nothing bears is an error that says so. -/
theorem names_resolve (name : List Char) (trimmed : trim name = name) :
    (∀ (program : Program) (func : FuncId) (scope : Scope),
      program.Built → scope.Describes program func →
      Loader.Fetches (Loader.operandOfText scope ('%' :: name)) program
          (fun operand after => program.Bears func (String.ofList name) operand ∧ after = program)
          (.unknownValue scope.function (String.ofList name))
        ∧ Loader.Fetches (Loader.operandOfText scope ('@' :: name)) program
          (fun operand after => ∃ symbol, program.IsSymbol (bare '@' name) symbol
            ∧ Loader.Yields (Loader.constant symbol) program operand after)
          (.unknownSymbol (bare '@' name))
        ∧ Loader.Fetches (Loader.operandOfText scope ("label %".toList ++ name)) program
          (fun operand after => (∃ id, program.Labels func (bare '%' name) id
            ∧ operand = .block id) ∧ after = program)
          (.unknownBlock scope.function (bare '%' name)))
    ∧ (∀ mark, name.head? ≠ some mark → bare mark name = String.ofList name)
    ∧ ∀ (document : Document) (func : FuncId) (entry : FunctionEntry) (scope : Scope)
        (done todo : List (InstId × InstEntry)) (before program : Program)
        (nodes : List OperandNode) (operands : List Operand),
        document.Reaches func entry scope done todo before →
        Loader.Yields (nodes.mapM (Loader.operandOf scope)) before operands program →
        program.Built ∧ scope.Describes program func :=
  ⟨fun _ _ _ built describes => ⟨Loader.fetches_local describes trimmed,
      Loader.fetches_symbol built trimmed, Loader.fetches_label describes trimmed⟩,
    fun _ => bare_of_head?_ne,
    fun _ _ _ _ _ _ _ _ _ _ reached resolved => reached.resolves resolved⟩

/-- A document with two functions, one of which is called what a reference to the other one would
look like. -/
def Document.fastcall : Document where
  layout := none
  structs := []
  globals := []
  functions := [⟨"@f", [], none, false, []⟩, ⟨"f", [], none, false, [⟨none, [
    ⟨none, "call", none, [.text "@@f"], none, none, none⟩,
    ⟨none, "ret", none, [], none, none, none⟩]⟩]⟩]

/-- The reference stands for the other function. -/
theorem names_resolve_fastcall :
    ∃ program scope, Document.fastcall.toProgram = .ok program
      ∧ scope.Describes program ⟨1⟩ ∧ program.IsSymbol "@f" (.function ⟨0⟩)
      ∧ Loader.Yields (Loader.operandOfText scope "@@f".toList) program
        (.const (program.functionRef ⟨1⟩).1) (program.functionRef ⟨1⟩).2 := by
  have loads : Document.fastcall.toProgram.toOption.any (fun program =>
      program.findFunction? "@f" = some ⟨0⟩ ∧ program.findFunction? "f" = some ⟨1⟩) = true := by
    decide +kernel
  obtain ⟨program, loaded, found⟩ := exists_of_any_toOption loads
  obtain ⟨marked, plain⟩ := of_decide_eq_true found
  obtain ⟨scope, insts, after, p, q, reached, rounds, later, last, -⟩ :=
    @exists_reaches Document.fastcall program loaded 1 _ rfl
  cases List.map_eq_nil_iff.mp last
  cases Loader.yields_forM_nil_iff.mp later
  rw [← List.append_nil insts] at reached
  obtain ⟨resolve, -, offered⟩ := names_resolve ['@', 'f'] (by decide)
  have none : Loader.Yields (List.mapM (Loader.operandOf scope) []) program [] program :=
    Loader.yields_pure_iff.mpr ⟨rfl, rfl⟩
  obtain ⟨built, describes⟩ := offered _ _ _ _ _ _ _ _ _ _ (reached.finish_all rounds) none
  have arranged := built.arranged
  obtain ⟨_, there, named⟩ := (arranged.findFunction _ _).mp marked
  obtain ⟨_, there', named'⟩ := (arranged.findFunction _ _).mp plain
  have symbols := (resolve _ _ _ built describes).2.1
  exact ⟨program, scope, loaded, describes, .function there named, (symbols.yields_iff _ _).mpr
    ⟨_, .function there' named', Loader.yields_update_iff.mpr rfl⟩⟩

end IrStream
