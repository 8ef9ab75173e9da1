import IrStream.Proofs.Document.Pending
import IrStream.Proofs.Reordering.Bodies

/-!
# Declarations in any order

Globals and functions are declared one after the other, and a declaration is refused for two reasons
only: a type in it cannot be read, or its name is taken.  The first depends on the names of structs,
which stay as they are meanwhile, and the second on which names are listed altogether.  So whether a
list can be declared does not depend on its order (`Loader.Declaring.exists_mapM_iff`).

What an entry declares is said by its type, which was read on the way, and by the names of arguments
(`Loader.DeclaresGlobal`, `Loader.DeclaresFunction`).

The list is the same for both sorts of entries, and so is the argument: it is made once, for any
step that is a `Loader.Declaring`.  That structure says of a step, for any program behind the one in
which declaring begins, when it succeeds and what it leaves.  It succeeds *if and only if* the type
can be read in the program at the beginning and the name is not taken by now.  The point is the
first half: what other entries have declared in the meantime has no influence on whether a type can
be read, because reading looks up names of structs and nothing else that could be missing.

For functions there is a little more to do, as their signature is a function type that is made on
the way, and the arguments that come with it are named one by one.  `declareFunction_eq` cuts the
step in two, so that the first part is about types only.

## Statements

* `Declaring.exists_mapM_iff`: when a list can be declared.
* `Declaring.mapM`: what there is behind it, one entry for each of the list.
* `declaring_declareGlobal`, `declaring_declareFunction`: **globals and functions are declared** if
  their types can be read and their names are free.
-/

set_option autoImplicit false

namespace IrStream

namespace Program

variable {p q r : Program}

/-- Everything that is there stays as it is.  Handles that are given out keep their meaning while
other things are declared. -/
structure Adds (p q : Program) : Prop where
  /-- The types have grown by literals only. -/
  types : p.types.Writes q.types
  /-- Every constant keeps its handle. -/
  constant : ∀ {id constant}, p.constant id = .ok constant → q.constant id = .ok constant
  /-- Every global keeps its handle. -/
  global : ∀ {id global}, p.global id = .ok global → q.global id = .ok global
  /-- Every function keeps its handle. -/
  function : ∀ {id function}, p.function id = .ok function → q.function id = .ok function
  /-- Every argument keeps its handle. -/
  arg : ∀ {id arg}, p.arg id = .ok arg → q.arg id = .ok arg

theorem Adds.refl (p : Program) : p.Adds p := ⟨.refl _, id, id, id, id⟩

theorem Adds.trans (first : p.Adds q) (second : q.Adds r) : p.Adds r where
  types := first.types.trans second.types
  constant found := second.constant (first.constant found)
  global found := second.global (first.global found)
  function found := second.function (first.function found)
  arg found := second.arg (first.arg found)

/-- What resolving adds is in no one's way.  It is more types and constants only. -/
theorem Enlarges.adds (enlarges : p.Enlarges q) : p.Adds q where
  types := enlarges.types
  constant := enlarges.constant
  global found := by rwa [global, enlarges.globals]
  function found := by rwa [function, enlarges.functions]
  arg found := by rwa [arg, enlarges.args]

/-- Resolving leaves the names of globals and functions. -/
theorem Enlarges.names (enlarges : p.Enlarges q) : q.names = p.names := by
  rw [Program.names, Program.names, enlarges.globals, enlarges.functions]

/-- Something that has a name of its own. -/
inductive Named where
  | global (id : GlobalId)
  | function (id : FuncId)

/-- The program has that global or function. -/
def Has (p : Program) : Named → Prop
  | .global id => ∃ global, p.global id = .ok global
  | .function id => ∃ function, p.function id = .ok function

/-- One global or function is added, under a name.  To declare is to add one named thing, and this
is what all that follows is based on. -/
structure AddsOne (p : Program) (name : String) (new : Named) (q : Program) : Prop where
  /-- Everything that was there stays. -/
  adds : p.Adds q
  /-- One name more is taken. -/
  names : q.names.Perm (name :: p.names)
  /-- Nothing else is there that was not there before. -/
  known : ∀ known, q.Has known → p.Has known ∨ known = new

theorem AddsOne.after {name : String} {new : Named} (adds : q.AddsOne name new r)
    (enlarges : p.Enlarges q) : p.AddsOne name new r where
  adds := enlarges.adds.trans adds.adds
  names := enlarges.names ▸ adds.names
  known known there := by
    refine (adds.known known there).imp_left fun old => ?_
    cases known with
    | global id => rwa [Has, Program.global, enlarges.globals] at old
    | function id => rwa [Has, Program.function, enlarges.functions] at old

/-- Arguments that were added with it may be renamed. -/
theorem AddsOne.renamed {name : String} {new : Named} (adds : p.AddsOne name new q)
    (same : r = { q with args := r.args })
    (kept : ∀ {id arg}, p.arg id = .ok arg → r.arg id = .ok arg) : p.AddsOne name new r := by
  generalize r.args = args at same
  subst same
  exact ⟨{ adds.adds with arg := kept }, adds.names, adds.known⟩

/-- The new global brings one name, and everything else that has a name was there before. -/
theorem addsOne_addGlobal {name : String} {type : TypeId} {threadLocal : Bool} {id : GlobalId}
    (run : p.addGlobal name type threadLocal = .ok (id, q)) : p.AddsOne name (.global id) q := by
  obtain ⟨same, rfl⟩ := addGlobal_eq_ok run
  refine ⟨{ Adds.refl p with
    global := fun found =>
      global_eq_ok_iff.mpr (getElem?_push_of_some (global_eq_ok_iff.mp found)) }, ?_,
    fun known there => ?_⟩
  · simp only [Program.names, Array.toList_push, List.map_append, List.map_cons, List.map_nil,
      List.append_assoc, List.singleton_append]
    exact List.perm_middle
  · cases known with
    | function other => exact .inl there
    | global other =>
      obtain ⟨global, found⟩ := there
      refine (getElem?_push_eq_some (global_eq_ok_iff.mp found)).symm.imp
        (fun old => ⟨global, global_eq_ok_iff.mpr old⟩) fun last => ?_
      exact congrArg Named.global ((GlobalId.ext last.1).trans same.symm)

/-- The new function brings one name as well; its arguments are not named things of the program.
They are found through the function that they belong to. -/
theorem addsOne_addFunction {name : String} {type : TypeId} {id : FuncId}
    (run : p.addFunction name type = .ok (id, q)) : p.AddsOne name (.function id) q := by
  have kept := @arg_of_addFunction _ _ _ _ _ run
  obtain ⟨_, _, _, -, same, rfl⟩ := addFunction_eq_ok run
  refine ⟨{ Adds.refl p with
    function := fun found =>
      function_eq_ok_iff.mpr (getElem?_push_of_some (function_eq_ok_iff.mp found))
    arg := kept }, ?_, fun known there => ?_⟩
  · simp only [Program.names, Array.toList_push, List.map_append, List.map_cons, List.map_nil,
      ← List.append_assoc]
    exact List.perm_append_singleton _ _
  · cases known with
    | global other => exact .inl there
    | function other =>
      obtain ⟨function, found⟩ := there
      refine (getElem?_push_eq_some (function_eq_ok_iff.mp found)).symm.imp
        (fun old => ⟨function, function_eq_ok_iff.mpr old⟩) fun last => ?_
      exact congrArg Named.function ((FuncId.ext last.1).trans same.symm)

end Program

namespace Loader

open Program

variable {α β : Type} {p q r s base : Program}

/-! ## Steps that declare -/

/-- The step declares something for an entry, if the type of the entry can be read and its name is
free.  Nothing else is there afterwards that was not there before.  It is stated of a step, so that
globals and functions share what is proved of lists. -/
structure Declaring (base : Program) (step : α → Loader (β × α)) (type : α → Loader TypeId)
    (name : α → String) (named : β → Named) (Declares : Program → β → α → Prop) : Prop where
  /-- The step succeeds exactly if the type can be read and the name is free. -/
  exists_iff : ∀ {a r}, base.Adds r → ((∃ answer s, Yields (step a) r answer s)
    ↔ (∃ id s, Yields (type a) base id s) ∧ name a ∉ r.names)
  /-- What it declares is what the entry asks for, under its name. -/
  declares : ∀ {a r answer s}, base.Adds r → Yields (step a) r answer s →
    r.AddsOne (name a) (named answer.1) s ∧ answer.2 = a ∧ Declares s answer.1 a
  /-- What was declared stays declared while more is added. -/
  stays : ∀ {r s id a}, r.Adds s → Declares r id a → Declares s id a

namespace Declaring

variable {step : α → Loader (β × α)} {type : α → Loader TypeId} {name : α → String}
  {named : β → Named} {Declares : Program → β → α → Prop}
  (declaring : Declaring base step type name named Declares) {list : List α}
  {answers : List (β × α)}
include declaring

/-- A list can be declared if all types in it can be read, and no name is there twice.  This
condition does not mention the order, which is the reason why the order makes no difference. -/
theorem exists_mapM_iff (list : List α) (before : base.Adds p) (distinct : p.names.Nodup) :
    (∃ answers q, Yields (list.mapM step) p answers q)
      ↔ (∀ a ∈ list, ∃ id s, Yields (type a) base id s) ∧ (list.map name ++ p.names).Nodup := by
  induction list generalizing p with
  | nil => exact iff_of_true ⟨[], p, yields_mapM_nil_iff.mpr ⟨rfl, rfl⟩⟩ ⟨by simp, distinct⟩
  | cons a rest ih =>
    rw [List.forall_mem_cons, List.map_cons, List.cons_append, List.nodup_cons, List.mem_append,
      not_or]
    constructor
    -- a name that is new to the rest and to the program, in both directions
    · rintro ⟨_, q, run⟩
      obtain ⟨answer, r, answers, first, others, -⟩ := yields_mapM_cons_iff.mp run
      obtain ⟨readable, free⟩ := (declaring.exists_iff before).mp ⟨answer, r, first⟩
      obtain ⟨⟨adds, names, -⟩, -⟩ := declaring.declares before first
      have distinct := names.nodup_iff.mpr (List.nodup_cons.mpr ⟨free, distinct⟩)
      obtain ⟨others, apart⟩ := (ih (before.trans adds) distinct).mp ⟨answers, q, others⟩
      have apart := (names.append_left (rest.map name)).nodup_iff.mp apart
      obtain ⟨new, apart⟩ := List.nodup_cons.mp (List.perm_middle.nodup_iff.mp apart)
      rw [List.mem_append, not_or] at new
      exact ⟨⟨readable, others⟩, new, apart⟩
    · rintro ⟨⟨readable, others⟩, ⟨new, free⟩, apart⟩
      obtain ⟨answer, r, first⟩ := (declaring.exists_iff before).mpr ⟨readable, free⟩
      obtain ⟨⟨adds, names, -⟩, -⟩ := declaring.declares before first
      have distinct := names.nodup_iff.mpr (List.nodup_cons.mpr ⟨free, distinct⟩)
      have new : name a ∉ rest.map name ++ p.names := by
        rw [List.mem_append, not_or]
        exact ⟨new, free⟩
      have apart := List.perm_middle.nodup_iff.mpr (List.nodup_cons.mpr ⟨new, apart⟩)
      have apart := (names.append_left (rest.map name)).nodup_iff.mpr apart
      obtain ⟨answers, q, run⟩ := (ih (before.trans adds) distinct).mpr ⟨others, apart⟩
      exact ⟨answer :: answers, q, yields_mapM_cons_iff.mpr ⟨answer, r, answers, first, run, rfl⟩⟩

/-- What declaring a list does. -/
theorem mapM (before : base.Adds p) (run : Yields (list.mapM step) p answers q) :
    p.Adds q ∧ q.names.Perm (list.map name ++ p.names) ∧ answers.map (·.2) = list
      ∧ (∀ answer ∈ answers, Declares q answer.1 answer.2)
      ∧ ∀ known, q.Has known → p.Has known ∨ known ∈ answers.map (named ·.1) := by
  induction list generalizing p answers with
  | nil =>
    obtain ⟨rfl, rfl⟩ := yields_mapM_nil_iff.mp run
    exact ⟨.refl _, .refl _, rfl, by simp, fun _ => .inl⟩
  | cons a rest ih =>
    obtain ⟨answer, r, answers, first, others, rfl⟩ := yields_mapM_cons_iff.mp run
    obtain ⟨⟨adds, names, known⟩, same, declares⟩ := declaring.declares before first
    obtain ⟨more, names', same', declared, found⟩ := ih (before.trans adds) others
    refine ⟨adds.trans more, ?_, by rw [List.map_cons, same, same'],
      List.forall_mem_cons.mpr ⟨?_, declared⟩, fun other there => ?_⟩
    · exact (names'.trans (names.append_left _)).trans List.perm_middle
    · rw [same]
      exact declaring.stays more declares
    · rw [List.map_cons, List.mem_cons]
      rcases found other there with old | listed
      · exact (known other old).imp_right .inl
      · exact .inr (.inr listed)

end Declaring

/-! ## Globals -/

theorem enlarges_typeOf (regular : p.types.Regular) {node : TypeNode} {type : TypeId}
    (run : Yields (typeOf node) p type q) : p.Enlarges q :=
  ((along_typeOf regular.twins node).of_yields run run).1

/-- A type that is read in one program can be read in every later one. -/
theorem along_typeOf_later (regular : p.types.Regular) (adds : p.Adds r) (node : TypeNode) :
    Along Enlarges p r (typeOf node) (typeOf node) fun p r => Types.SameTerm p.types r.types :=
  along_typeOf (regular.twins.mono (.refl _) adds.types.interns) node

/-- A global is declared by reading its type and adding it, which may both fail.  Adding fails if
the name is taken. -/
theorem yields_declareGlobal_iff {entry : GlobalEntry} {answer : GlobalId × GlobalEntry} :
    Yields (declareGlobal entry) p answer q ↔ ∃ type r, Yields (typeOf entry.type) p type r
      ∧ r.addGlobal entry.name type entry.threadLocal = .ok (answer.1, q) ∧ answer.2 = entry := by
  obtain ⟨id, written⟩ := answer
  simp only [declareGlobal, yields_bind_iff, yields_update_iff, yields_pure_iff]
  constructor
  · rintro ⟨type, r, resolved, _, _, added, same, rfl⟩
    cases same
    exact ⟨type, r, resolved, added, rfl⟩
  · rintro ⟨type, r, resolved, added, rfl⟩
    exact ⟨type, r, resolved, id, q, added, rfl, rfl⟩

/-- The global is the one of an entry, without its initializer.  Initializers are resolved later,
when everything has been declared. -/
def DeclaresGlobal (base p : Program) (id : GlobalId) (entry : GlobalEntry) : Prop :=
  ∃ type r s, base.Adds r ∧ Yields (typeOf entry.type) r type s ∧ s.Adds p
    ∧ p.global id = .ok ⟨entry.name, type, entry.threadLocal, none⟩

theorem DeclaresGlobal.adds {id : GlobalId} {entry : GlobalEntry}
    (declares : DeclaresGlobal base p id entry) (adds : p.Adds q) :
    DeclaresGlobal base q id entry := by
  obtain ⟨type, r, s, before, resolved, behind, found⟩ := declares
  exact ⟨type, r, s, before, resolved, behind.trans adds, adds.global found⟩

/-- What is there when a global is declared.  It is stated relative to an earlier program, in which
the type can be read as well. -/
theorem DeclaresGlobal.of_yields (regular : base.types.Regular) (before : base.Adds p)
    {entry : GlobalEntry} {answer : GlobalId × GlobalEntry}
    (run : Yields (declareGlobal entry) p answer q) :
    p.AddsOne entry.name (.global answer.1) q ∧ answer.2 = entry
      ∧ DeclaresGlobal base q answer.1 entry := by
  obtain ⟨type, r, resolved, added, same⟩ := yields_declareGlobal_iff.mp run
  have enlarges := enlarges_typeOf (regular.interns before.types.interns) resolved
  have adds := addsOne_addGlobal added
  refine ⟨adds.after enlarges, same, type, p, r, before, resolved, adds.adds, ?_⟩
  rw [(addGlobal_eq_ok added).1, (addGlobal_eq_ok added).2]
  exact resolve_push_self rfl

/-- **Globals are declared** if their types can be read and their names are free.  So a list of
globals can be declared in every order or in none. -/
theorem declaring_declareGlobal (regular : base.types.Regular) :
    Declaring base declareGlobal (fun entry => typeOf entry.type) (·.name) .global
      (DeclaresGlobal base) where
  exists_iff {entry p} before := by
    rw [← (along_typeOf_later regular before entry.type).exists_iff]
    constructor
    · rintro ⟨answer, q, run⟩
      obtain ⟨type, r, resolved, added, -⟩ := yields_declareGlobal_iff.mp run
      refine ⟨⟨type, r, resolved⟩, ?_⟩
      rw [← (enlarges_typeOf (regular.interns before.types.interns) resolved).names]
      exact hasSymbol_eq_false_iff.mp (hasSymbol_of_addGlobal added)
    · rintro ⟨⟨type, r, resolved⟩, free⟩
      rw [← (enlarges_typeOf (regular.interns before.types.interns) resolved).names,
        ← hasSymbol_eq_false_iff] at free
      have added : ∃ added, r.addGlobal entry.name type entry.threadLocal = .ok added := by
        rw [addGlobal, free]
        exact ⟨_, rfl⟩
      obtain ⟨⟨id, q⟩, added⟩ := added
      exact ⟨(id, entry), q, yields_declareGlobal_iff.mpr ⟨type, r, resolved, added, rfl⟩⟩
  declares before run := DeclaresGlobal.of_yields regular before run
  stays adds declares := declares.adds adds

/-! ## Arguments -/

/-- The arguments have the names of parameters, so far as there are some.  A parameter may have no
name, and a list of parameters may be too short. -/
def NamesArgs (p : Program) (ids : List ArgId) (params : List ParamEntry) : Prop :=
  ∀ (number : Nat) (id : ArgId), ids[number]? = some id →
    ∃ arg, p.arg id = .ok arg ∧ arg.name = (params[number]?).bind ParamEntry.name

/-- An argument without a name gets the one that its parameter has, if it has one, and this cannot
fail. -/
theorem exists_nameArg {id : ArgId} {arg : Arg} (found : p.arg id = .ok arg)
    (unnamed : arg.name = none) (param : ParamEntry) :
    ∃ q, Yields (nameArg (id, param)) p () q ∧ q = { p with args := q.args }
      ∧ (∀ other ≠ id, q.arg other = p.arg other)
      ∧ q.arg id = .ok { arg with name := param.name } := by
  rw [nameArg]
  cases named : param.name with
  | none =>
    refine ⟨p, yields_pure_iff.mpr ⟨rfl, rfl⟩, rfl, fun _ _ => rfl, ?_⟩
    rw [← unnamed]
    exact found
  | some name =>
    refine ⟨{ p with args := p.args.setIfInBounds id.index { arg with name := some name } }, ?_,
      rfl, fun other apart => ?_, resolve_set_self found⟩
    · simp only [yields_bind_iff, yields_get_iff, yields_dangling_iff, yields_set_iff]
      exact ⟨_, _, ⟨rfl, rfl⟩, _, _, ⟨by rw [setArgName, found]; rfl, rfl⟩, rfl⟩
    · exact resolve_set_of_ne fun same => apart (ArgId.ext same)

/-- Arguments get the names of parameters, one after the other.  The arguments are new and distinct,
so none is named twice. -/
theorem exists_nameArgs {ids : List ArgId} (distinct : ids.Nodup)
    (unnamed : ∀ id ∈ ids, ∃ arg, p.arg id = .ok arg ∧ arg.name = none) (params : List ParamEntry) :
    ∃ q, Yields ((ids.zip params).forM nameArg) p () q ∧ q = { p with args := q.args }
      ∧ (∀ other ∉ ids, q.arg other = p.arg other) ∧ NamesArgs q ids params := by
  induction ids generalizing p params with
  | nil =>
    exact ⟨p, yields_forM_nil_iff.mpr rfl, rfl, fun _ _ => rfl, fun _ _ listed => nomatch listed⟩
  | cons id rest ih =>
    cases params with
    | nil =>
      refine ⟨p, yields_forM_nil_iff.mpr rfl, rfl, fun _ _ => rfl, fun _ _ listed => ?_⟩
      exact unnamed _ (List.mem_of_getElem? listed)
    | cons param params =>
      obtain ⟨new, distinct⟩ := List.nodup_cons.mp distinct
      obtain ⟨⟨arg, found, blank⟩, others⟩ := List.forall_mem_cons.mp unnamed
      obtain ⟨r, run, same, kept, here⟩ := exists_nameArg found blank param
      have apart {other : ArgId} (mem : other ∈ rest) : other ≠ id := fun same => new (same ▸ mem)
      have others : ∀ other ∈ rest, ∃ arg, r.arg other = .ok arg ∧ arg.name = none := by
        intro other mem
        rw [kept other (apart mem)]
        exact others other mem
      obtain ⟨q, run', same', kept', named⟩ := ih distinct others params
      refine ⟨q, yields_forM_cons_iff.mpr ⟨r, run, run'⟩, same'.trans (by rw [same]),
        fun other outside => ?_, fun number other listed => ?_⟩
      · rw [List.mem_cons, not_or] at outside
        exact (kept' other outside.2).trans (kept other outside.1)
      · cases number with
        | zero =>
          cases listed
          exact ⟨_, (kept' _ new).trans here, rfl⟩
        | succ number => exact named number other listed

/-! ## Functions -/

/-- The type of a function that is declared.  It is the part of the declaration that depends on
types alone. -/
def signature (entry : FunctionEntry) : Loader TypeId := do
  let params ← typesOf (entry.params.map (·.type))
  let ret ← returnOf entry
  withTypes (·.func params ret entry.vararg)

/-- Declare a function of that type.  It is the part that depends on names. -/
def register (entry : FunctionEntry) (type : TypeId) : Loader (FuncId × FunctionEntry) := do
  let id ← update (·.addFunction entry.name type)
  let function ← ((← get).function id : Except Dangling Function)
  (function.args.zip entry.params).forM nameArg
  return (id, entry)

/-- Declaring a function is to read its signature and then to register it. -/
theorem declareFunction_eq (entry : FunctionEntry) :
    declareFunction entry = signature entry >>= register entry := by
  rw [declareFunction, signature]
  simp only [bind_assoc, returnOf]
  cases entry.ret <;> rfl

theorem along_returnOf (twins : p.types.Twins q.types) (entry : FunctionEntry) :
    Along Enlarges p q (returnOf entry) (returnOf entry)
      fun p q => Types.SameTerm p.types q.types := by
  rw [returnOf]
  cases entry.ret with
  | some ret => exact along_typeOf twins ret
  | none => exact .pure (twins.sameTerm_basic (by decide))

theorem along_signature (twins : p.types.Twins q.types) (entry : FunctionEntry) :
    Along Enlarges p q (signature entry) (signature entry)
      fun p q => Types.SameTerm p.types q.types := by
  refine (along_typesOf twins _).bind fun first first' params => ?_
  have twins := twins.mono first.types.interns first'.types.interns
  refine (along_returnOf twins entry).bind fun second second' ret => ?_
  have params := Types.SameTerm.all_mono params twins second.types.interns second'.types.interns
  exact along_func (twins.mono second.types.interns second'.types.interns) entry.vararg params ret

theorem enlarges_signature (regular : p.types.Regular) {entry : FunctionEntry} {type : TypeId}
    (run : Yields (signature entry) p type q) : p.Enlarges q :=
  ((along_signature regular.twins entry).of_yields run run).1

/-- A signature is a function type.  Registering fails for any other type, so that cause is out of
the question. -/
theorem shape_of_signature {entry : FunctionEntry} {type : TypeId}
    (run : Yields (signature entry) p type q) :
    ∃ params ret vararg, q.types.shape type = .ok (.func params ret vararg) := by
  simp only [signature, yields_bind_iff, yields_withTypes_iff] at run
  obtain ⟨params, r, -, ret, s, -, rfl, rfl⟩ := run
  exact ⟨params, ret, entry.vararg, Types.shape_intern rfl⟩

/-- The function is the one of an entry, without its blocks.  Blocks come with the bodies, when all
functions have been declared. -/
def DeclaresFunction (base p : Program) (id : FuncId) (entry : FunctionEntry) : Prop :=
  ∃ type args r s, base.Adds r ∧ Yields (signature entry) r type s ∧ s.Adds p
    ∧ p.function id = .ok ⟨entry.name, type, args, []⟩ ∧ NamesArgs p args entry.params

theorem DeclaresFunction.adds {id : FuncId} {entry : FunctionEntry}
    (declares : DeclaresFunction base p id entry) (adds : p.Adds q) :
    DeclaresFunction base q id entry := by
  obtain ⟨type, args, r, s, before, resolved, behind, found, named⟩ := declares
  refine ⟨type, args, r, s, before, resolved, behind.trans adds, adds.function found,
    fun number id listed => ?_⟩
  obtain ⟨arg, known, name⟩ := named number id listed
  exact ⟨arg, adds.arg known, name⟩

theorem free_of_register {entry : FunctionEntry} {type : TypeId} {answer : FuncId × FunctionEntry}
    (run : Yields (register entry type) p answer q) : entry.name ∉ p.names := by
  simp only [register, yields_bind_iff, yields_update_iff] at run
  obtain ⟨id, r, added, -⟩ := run
  exact hasSymbol_eq_false_iff.mp (hasSymbol_of_addFunction added)

theorem nodup_newArgs (params : List TypeId) (first : Nat) :
    (params.mapIdx fun number _ => (⟨first + number⟩ : ArgId)).Nodup := by
  refine List.nodup_iff_injective_get.mpr fun index other same => Fin.ext ?_
  rw [List.get_eq_getElem, List.get_eq_getElem, List.getElem_mapIdx, List.getElem_mapIdx] at same
  exact Nat.add_left_cancel (congrArg ArgId.index same)

/-- A function of a function type can be declared if its name is free. -/
theorem exists_register {entry : FunctionEntry} {type : TypeId} {params : List TypeId}
    {ret : TypeId} {vararg : Bool} (shape : p.types.shape type = .ok (.func params ret vararg))
    (free : entry.name ∉ p.names) :
    ∃ id q, Yields (register entry type) p (id, entry) q ∧ p.AddsOne entry.name (.function id) q
      ∧ ∃ args, q.function id = .ok ⟨entry.name, type, args, []⟩
        ∧ NamesArgs q args entry.params := by
  have added : ∃ id r, p.addFunction entry.name type = .ok (id, r) := by
    rw [addFunction, shape]
    exact ⟨_, _, by rw [← hasSymbol_eq_false_iff] at free; simp only [free]; rfl⟩
  obtain ⟨id, r, added⟩ := added
  have adds := addsOne_addFunction added
  obtain ⟨_, _, _, again, rfl, same⟩ := addFunction_eq_ok added
  cases shape.symm.trans again
  have found : r.function ⟨p.functions.size⟩ = .ok ⟨entry.name, type,
      params.mapIdx fun number _ => ⟨p.args.size + number⟩, []⟩ := by
    rw [same]
    exact resolve_push_self rfl
  have unnamed : ∀ id ∈ params.mapIdx fun number _ => (⟨p.args.size + number⟩ : ArgId),
      ∃ arg, r.arg id = .ok arg ∧ arg.name = none := by
    intro id mem
    obtain ⟨number, bound, rfl⟩ := List.mem_mapIdx.mp mem
    refine ⟨⟨⟨p.functions.size⟩, number, params[number], none⟩, ?_, rfl⟩
    rw [same, arg_eq_ok_iff, Array.getElem?_append_right (Nat.le_add_right _ _)]
    simp [bound]
  obtain ⟨q, named, args, kept, names⟩ :=
    exists_nameArgs (nodup_newArgs params p.args.size) unnamed entry.params
  refine ⟨⟨p.functions.size⟩, q, ?_, adds.renamed args fun {id arg} old => ?_, _, ?_, names⟩
  · simp only [register, yields_bind_iff, yields_update_iff, yields_get_iff, yields_dangling_iff,
      yields_pure_iff]
    exact ⟨_, r, added, _, _, ⟨rfl, rfl⟩, _, _, ⟨found, rfl⟩, (), _, named, rfl, rfl⟩
  · -- the new arguments are behind all others
    refine (kept id fun mem => ?_).trans (adds.adds.arg old)
    obtain ⟨number, -, same⟩ := List.mem_mapIdx.mp mem
    have bound := lt_size_of_arg old
    rw [← same] at bound
    exact Nat.not_lt_of_le (Nat.le_add_right _ _) bound
  · rw [args]
    exact found

/-- What is there when a function is declared. -/
theorem DeclaresFunction.of_yields (regular : base.types.Regular) (before : base.Adds p)
    {entry : FunctionEntry} {answer : FuncId × FunctionEntry}
    (run : Yields (declareFunction entry) p answer q) :
    p.AddsOne entry.name (.function answer.1) q ∧ answer.2 = entry
      ∧ DeclaresFunction base q answer.1 entry := by
  rw [declareFunction_eq] at run
  obtain ⟨type, r, resolved, run⟩ := yields_bind_iff.mp run
  obtain ⟨params, ret, vararg, shape⟩ := shape_of_signature resolved
  have enlarges := enlarges_signature (regular.interns before.types.interns) resolved
  obtain ⟨id, s, run', adds, args, found, named⟩ := exists_register shape (free_of_register run)
  cases run.symm.trans run'
  exact ⟨adds.after enlarges, rfl, type, args, p, r, before, resolved, adds.adds, found, named⟩

/-- **Functions are declared** if their signatures can be read and their names are free.  Names of
globals and of functions are one space, so the two lists may be in each other's way, but not in
themselves. -/
theorem declaring_declareFunction (regular : base.types.Regular) :
    Declaring base declareFunction signature (·.name) .function (DeclaresFunction base) where
  exists_iff {entry p} before := by
    have twins := regular.twins.mono (.refl _) before.types.interns
    rw [← (along_signature twins entry).exists_iff, declareFunction_eq]
    simp only [yields_bind_iff]
    constructor
    · rintro ⟨answer, q, type, r, resolved, run⟩
      refine ⟨⟨type, r, resolved⟩, ?_⟩
      rw [← (enlarges_signature (regular.interns before.types.interns) resolved).names]
      exact free_of_register run
    · rintro ⟨⟨type, r, resolved⟩, free⟩
      obtain ⟨params, ret, vararg, shape⟩ := shape_of_signature resolved
      rw [← (enlarges_signature (regular.interns before.types.interns) resolved).names] at free
      obtain ⟨id, q, run, -⟩ := exists_register shape free
      exact ⟨(id, entry), q, type, r, resolved, run⟩
  declares before run := DeclaresFunction.of_yields regular before run
  stays adds declares := declares.adds adds

end Loader

end IrStream
