import IrStream.Proofs.Program.Arranged
import IrStream.Proofs.Types.Acyclic

/-!
# Programs that are changed in place

An operation on a `Program` that fails answers no program, so the old one still stands.  A program
that is changed in place has no old one to go back to: what an operation has done before it fails
stays done.  `Workspace` is such a program, with an index of its names beside the arenas, and an
`Editing` operation changes it step by step.

Adding a function, for example, claims its name, then adds one argument after the other, then the
function.  Nevertheless such an operation does to the program what the operation of `Program` does,
and leaves the workspace alone if that fails (`Workspace.Does`), as long as the index has exactly
the names of the program (`Workspace.Indexed`).

## Errors and state

`Editing` is a state monad *under* errors: a run answers a value or an error, and in both cases a
workspace.  In the other order an error would come without a workspace, and changes before it could
not be seen.  So an operation that claimed a name first and then found that the type is no function
type would leave the name claimed, and the lemma about it could not be proved.  Of the operations
here none does that; they look at everything that may be wrong before they change anything, and the
proofs show it by running them.

## The index

Beside the arenas there is a list of names with what they stand for.  Names are looked up in the
index and never in the arenas, so the two have to agree, and not only for names that were found: a
name that is in an arena and not in the index could be taken a second time.  `Indexed` says that the
index answers for every name what the arenas say, and each operation keeps it.

* `claimSymbol`, `pushArgs`, `checkFields` and so on are the steps, and `addGlobal`, `addFunction`,
  `constInt` and `setStructBody` the four operations that check what they are given.
* `run_…` are equations for `simp`: what a step answers and leaves, from any workspace.
* `does_…` compare an operation in place with the operation of `Program` that has its name.
-/

set_option autoImplicit false

namespace IrStream

/-- What a name stands for.  Globals and functions share one space of names. -/
inductive Symbol where
  /-- The name of a global. -/
  | global (id : GlobalId)
  /-- The name of a function. -/
  | function (id : FuncId)
  deriving DecidableEq

/-- A program that is changed in place, and the index of its names.  The two could disagree: an
operation that fails between changing one and changing the other would leave them apart. -/
structure Workspace where
  /-- The program as it is now. -/
  program : Program
  /-- What has a name, by its name. -/
  symbols : List (String × Symbol)
  deriving DecidableEq

namespace Workspace

/-- The workspace without any entity, for a target. -/
def empty (layout : DataLayout) : Workspace :=
  ⟨.empty layout, []⟩

/-- The global of that name. -/
def findGlobal? (workspace : Workspace) (name : String) : Option GlobalId :=
  match workspace.symbols.lookup name with
  | some (.global id) => some id
  | _ => none

/-- The function of that name. -/
def findFunction? (workspace : Workspace) (name : String) : Option FuncId :=
  match workspace.symbols.lookup name with
  | some (.function id) => some id
  | _ => none

end Workspace

/-- A step that changes a workspace.  What was changed before an error stays changed.  So an error
does not undo anything by itself. -/
abbrev Editing (α : Type) : Type :=
  ExceptT ProgramError (StateM Workspace) α

namespace Editing

variable {α β : Type}

/-- What can be found out without changing anything.  This is what checks are made of. -/
def ofExcept : Except ProgramError α → Editing α
  | .ok value => pure value
  | .error error => throw error

/-! ## Steps -/

/-- Take a name, unless it is taken.  It changes the index at once, before anything else of the
operation is done. -/
def claimSymbol (name : String) (symbol : Symbol) : Editing Unit := do
  match (← get).symbols.lookup name with
  | some _ => throw (.duplicateName name)
  | none => modify fun workspace =>
    { workspace with symbols := (name, symbol) :: workspace.symbols }

def pushGlobal (global : Global) : Editing Unit :=
  modify fun workspace => { workspace with program := { workspace.program with
    globals := workspace.program.globals.push global } }

def pushFunction (function : Function) : Editing Unit :=
  modify fun workspace => { workspace with program := { workspace.program with
    functions := workspace.program.functions.push function } }

/-- Add an argument of a function. -/
def pushArg (func : FuncId) (number : Nat) (type : TypeId) : Editing ArgId := do
  let id : ArgId := ⟨(← get).program.args.size⟩
  modify fun workspace => { workspace with program := { workspace.program with
    args := workspace.program.args.push ⟨func, number, type, none⟩ } }
  return id

/-- Add an argument for each parameter, from `number` on.  Each of them is pushed by itself, so a
stop on the way would leave some. -/
def pushArgs (func : FuncId) : (number : Nat) → List TypeId → Editing (List ArgId)
  | _, [] => return []
  | number, type :: rest => do
    let id ← pushArg func number type
    return id :: (← pushArgs func (number + 1) rest)

/-- Look at one field after the other.  The first field that may not stand there ends it. -/
def checkFields (id : TypeId) (name : String) : List TypeId → Editing Unit
  | [] => return
  | field :: rest => do
    ofExcept ((← get).program.types.checkField id name field)
    checkFields id name rest

def shape (id : TypeId) : Editing TypeShape := do
  ofExcept ((← get).program.types.shape id : Except Dangling TypeShape)

/-! ## Operations that check something -/

/-- Add a global without an initializer. -/
def addGlobal (name : String) (type : TypeId) (threadLocal : Bool) : Editing GlobalId := do
  let id : GlobalId := ⟨(← get).program.globals.size⟩
  claimSymbol name (.global id)
  pushGlobal ⟨name, type, threadLocal, none⟩
  return id

/-- Add a function without blocks, with one argument for each parameter of its type. -/
def addFunction (name : String) (type : TypeId) : Editing FuncId := do
  match ← shape type with
  | .func params _ _ =>
    let id : FuncId := ⟨(← get).program.functions.size⟩
    claimSymbol name (.function id)
    let args ← pushArgs id 0 params
    pushFunction ⟨name, type, args, []⟩
    return id
  | _ => throw (.notAFunctionType ((← get).program.types.text type))

/-- The integer constant of type `type` that is congruent to `value` modulo two to the width. -/
def constInt (type : TypeId) (value : Int) : Editing ConstId := do
  match ← shape type with
  | .int bits =>
    if maxIntBits < bits.toNat then
      throw (.integerTooWide bits)
    else
      let workspace ← get
      let (id, program) := workspace.program.internConstant
        (.int type (truncate (BitVec.ofInt 128 value) bits.toNat))
      set { workspace with program }
      return id
  | _ => throw (.notAnIntegerType ((← get).program.types.text type))

/-- Give the named struct `id` a body, in place of the one it may have. -/
def setStructBody (id : TypeId) (fields : List TypeId) (packed : Bool) : Editing Unit := do
  match (← shape id).structName? with
  | none => throw (.notANamedStruct id)
  | some name =>
    checkFields id name fields
    modify fun workspace => { workspace with program := { workspace.program with
      types := ⟨workspace.program.types.shapes.setIfInBounds id.index
        (.struct ⟨some name, fields, packed, true⟩)⟩ } }

/-! ## Operations that do not

An operation that changes one arena by one entry has no state in between that could be seen. -/

/-- Change the program at once.  The program that an error would leave is not looked at, so this is
for operations that check everything first. -/
def attempt (operation : Program → Except ProgramError (α × Program)) : Editing α := do
  let workspace ← get
  let (answer, program) ← ofExcept (operation workspace.program)
  set { workspace with program }
  return answer

/-- Read a type.  The types that are parts of the text stay, also if the text as a whole is not a
type.  It is the one operation that may fail and leave something behind. -/
def readText (text : List Char) : Editing TypeId := do
  let workspace ← get
  let (types, id) := workspace.program.types.readText text
  set { workspace with program := { workspace.program with types } }
  ofExcept id

end Editing

namespace Editing

variable {α β : Type} {workspace : Workspace}

/-! ## Running steps

One equation for each step, and two for each way of putting steps together: if the first one
succeeds and if it fails. -/

@[simp] theorem run_pure (value : α) :
    (pure value : Editing α).run.run workspace = (.ok value, workspace) := rfl

@[simp] theorem run_throw (error : ProgramError) :
    (throw error : Editing α).run.run workspace = (.error error, workspace) := rfl

@[simp] theorem run_get :
    (get : Editing Workspace).run.run workspace = (.ok workspace, workspace) :=
  rfl

@[simp] theorem run_set (after : Workspace) :
    (set after : Editing PUnit).run.run workspace = (.ok ⟨⟩, after) := rfl

@[simp] theorem run_modify (step : Workspace → Workspace) :
    (modify step : Editing PUnit).run.run workspace = (.ok ⟨⟩, step workspace) := rfl

@[simp] theorem run_ofExcept (answer : Except ProgramError α) :
    (ofExcept answer).run.run workspace = (answer, workspace) := by
  cases answer <;> rfl

/-- A block runs its second step from what the first one leaves, or stops there.  The workspace goes
on as it is in both cases, which is what sets it apart from a transaction. -/
theorem run_bind (first : Editing α) (next : α → Editing β) :
    (first >>= next).run.run workspace = match first.run.run workspace with
      | (.ok value, after) => (next value).run.run after
      | (.error error, after) => (.error error, after) := by
  rw [ExceptT.run_bind, StateT.run_bind]
  generalize first.run.run workspace = outcome
  obtain ⟨answer, after⟩ := outcome
  cases answer <;> rfl

theorem run_bind_of_ok {first : Editing α} {next : α → Editing β} {value : α} {after : Workspace}
    (run : first.run.run workspace = (.ok value, after)) :
    (first >>= next).run.run workspace = (next value).run.run after := by
  rw [run_bind, run]

theorem run_bind_of_error {first : Editing α} {next : α → Editing β} {error : ProgramError}
    {after : Workspace} (run : first.run.run workspace = (.error error, after)) :
    (first >>= next).run.run workspace = (.error error, after) := by
  rw [run_bind, run]

theorem run_claimSymbol_of_none {name : String} (free : workspace.symbols.lookup name = none)
    (symbol : Symbol) : (claimSymbol name symbol).run.run workspace
      = (.ok (), { workspace with symbols := (name, symbol) :: workspace.symbols }) := by
  rw [claimSymbol, run_bind_of_ok run_get, free, run_modify]

theorem run_claimSymbol_of_some {name : String} {taken : Symbol}
    (found : workspace.symbols.lookup name = some taken) (symbol : Symbol) :
    (claimSymbol name symbol).run.run workspace = (.error (.duplicateName name), workspace) := by
  rw [claimSymbol, run_bind_of_ok run_get, found, run_throw]

theorem run_pushArg (func : FuncId) (number : Nat) (type : TypeId) :
    (pushArg func number type).run.run workspace = (.ok ⟨workspace.program.args.size⟩,
      { workspace with program := { workspace.program with
        args := workspace.program.args.push ⟨func, number, type, none⟩ } }) := rfl

/-- The arguments of a function are pushed one after the other.  No argument fails, so all of them
are there behind the others. -/
theorem run_pushArgs (func : FuncId) (params : List TypeId) (number : Nat)
    (workspace : Workspace) : (pushArgs func number params).run.run workspace
      = (.ok (params.mapIdx fun index _ => ⟨workspace.program.args.size + index⟩),
        { workspace with program := { workspace.program with args := workspace.program.args
          ++ (params.mapIdx fun index type => (⟨func, number + index, type, none⟩ : Arg)).toArray
            } }) := by
  induction params generalizing number workspace with
  | nil =>
    rw [pushArgs, run_pure, List.mapIdx_nil, List.mapIdx_nil, Array.append_empty]
  | cons type rest ih =>
    rw [pushArgs, run_bind_of_ok (run_pushArg func number type), run_bind_of_ok (ih _ _), run_pure]
    have behind (index : Nat) : workspace.program.args.size + 1 + index
        = workspace.program.args.size + (index + 1) := by omega
    have later (index : Nat) : number + 1 + index = number + (index + 1) := by omega
    have pushed (first : Arg) (others : List Arg) : workspace.program.args.push first
        ++ others.toArray = workspace.program.args ++ (first :: others).toArray :=
      Array.toList_inj.mp (by simp)
    simp only [Array.size_push, List.mapIdx_cons, behind, later, Nat.add_zero, pushed]

/-- Checks change nothing. -/
theorem run_checkFields (id : TypeId) (name : String) (fields : List TypeId) :
    (checkFields id name fields).run.run workspace
      = (fields.forM (workspace.program.types.checkField id name), workspace) := by
  induction fields with
  | nil => rfl
  | cons field rest ih =>
    rw [checkFields, run_bind_of_ok run_get, run_bind, run_ofExcept, List.forM]
    cases workspace.program.types.checkField id name field with
    | ok => exact ih
    | error => rfl

theorem run_shape_of_ok {id : TypeId} {shape : TypeShape}
    (found : workspace.program.types.shape id = .ok shape) :
    (Editing.shape id).run.run workspace = (.ok shape, workspace) := by
  rw [Editing.shape, run_bind_of_ok run_get, run_ofExcept, found]
  rfl

theorem run_shape_of_error {id : TypeId} {handle : Dangling}
    (missing : workspace.program.types.shape id = .error handle) :
    (Editing.shape id).run.run workspace = (.error (.dangling handle), workspace) := by
  rw [Editing.shape, run_bind_of_ok run_get, run_ofExcept, missing]
  rfl

end Editing

/-! ## The index of names

In a program names are found by a search.  The index has to answer what the search does, also after
a global or a function is added. -/

/-- What a name stands for.  It is found by a search, globals first. -/
def Program.symbol? (program : Program) (name : String) : Option Symbol :=
  ((program.findGlobal? name).map Symbol.global).or
    ((program.findFunction? name).map Symbol.function)

/-- The index tells what each name stands for.  A name that nothing has is not in the index. -/
def Workspace.Indexed (workspace : Workspace) : Prop :=
  ∀ name, workspace.symbols.lookup name = workspace.program.symbol? name

namespace Program

variable {program after : Program}

theorem isSome_symbol? (name : String) :
    (program.symbol? name).isSome = program.hasSymbol name := by
  simp [symbol?, hasSymbol]

theorem symbol?_eq_none_iff {name : String} :
    program.symbol? name = none ↔ program.hasSymbol name = false := by
  rw [← isSome_symbol?, Option.isSome_eq_false_iff, Option.isNone_iff_eq_none]

theorem findIdx?_name_eq {α : Type} {arena other : Array α} {name : α → String}
    (same : arena.toList.map name = other.toList.map name) (text : String) :
    arena.findIdx? (name · == text) = other.findIdx? (name · == text) := by
  have arrays : arena.map name = other.map name := Array.toList_inj.mp (by simpa using same)
  have test : (fun entry => name entry == text) = (· == text) ∘ name := rfl
  rw [test, ← Array.findIdx?_map, ← Array.findIdx?_map, arrays]

/-- Names stand for the same if they are the same.  Other fields of globals and functions do not
matter. -/
theorem SameNames.symbol?_eq (same : program.SameNames after) (name : String) :
    after.symbol? name = program.symbol? name := by
  simp only [symbol?, findGlobal?, findFunction?, findIdx?_name_eq same.globals,
    findIdx?_name_eq same.functions]

theorem free_of_hasSymbol {name : String} (free : program.hasSymbol name = false) :
    program.globals.findIdx? (·.name == name) = none
      ∧ program.functions.findIdx? (·.name == name) = none := by
  simpa only [hasSymbol, findGlobal?, findFunction?, Option.isSome_map, Bool.or_eq_false_iff,
    Option.isSome_eq_false_iff, Option.isNone_iff_eq_none] using free

/-- A new global is what its name stands for.  The name was free, so nothing else loses its own. -/
theorem symbol?_push_global {global : Global} (free : program.hasSymbol global.name = false)
    (name : String) :
    { program with globals := program.globals.push global }.symbol? name
      = if name = global.name then some (.global ⟨program.globals.size⟩)
        else program.symbol? name := by
  obtain ⟨noGlobal, -⟩ := free_of_hasSymbol free
  simp only [symbol?, findGlobal?, findFunction?, Array.findIdx?_push]
  by_cases same : name = global.name
  · rw [same, noGlobal, beq_self_eq_true]
    simp
  · rw [beq_false_of_ne (Ne.symm same)]
    simp [same]

/-- A new function is what its name stands for. -/
theorem symbol?_push_function {function : Function}
    (free : program.hasSymbol function.name = false) (args : Array Arg) (name : String) :
    { program with args, functions := program.functions.push function }.symbol? name
      = if name = function.name then some (.function ⟨program.functions.size⟩)
        else program.symbol? name := by
  obtain ⟨noGlobal, noFunction⟩ := free_of_hasSymbol free
  simp only [symbol?, findGlobal?, findFunction?, Array.findIdx?_push]
  by_cases same : name = function.name
  · rw [same, noGlobal, noFunction, beq_self_eq_true]
    simp
  · rw [beq_false_of_ne (Ne.symm same)]
    simp [same]

/-- Where the type is an integer type, making an integer is a comparison and an interning.  A width
that is too large is found out before the value is looked at. -/
theorem constInt_of_int {type : TypeId} {bits : UInt32}
    (found : program.types.shape type = .ok (.int bits)) (value : Int) :
    program.constInt type value =
      if maxIntBits < bits.toNat then .error (.integerTooWide bits)
      else .ok (program.internConstant
        (.int type (truncate (BitVec.ofInt 128 value) bits.toNat))) := by
  rw [constInt, found]
  change (if maxIntBits < bits.toNat then _ else _) = _
  by_cases wide : maxIntBits < bits.toNat
  · rw [if_pos wide, if_pos wide]
    rfl
  · rw [if_neg wide, if_neg wide]
    rfl

end Program

namespace Workspace

variable {workspace : Workspace}

theorem indexed_empty (layout : DataLayout) : (empty layout).Indexed := fun name => by
  simp [empty, Program.symbol?, Program.empty, Program.findGlobal?, Program.findFunction?]

/-- A name that is claimed is in the index.  What else is in the index is there for the same reason
as before. -/
theorem Indexed.claim (indexed : workspace.Indexed) {name : String} {symbol : Symbol}
    {after : Program} (stands : ∀ other, after.symbol? other
      = if other = name then some symbol else workspace.program.symbol? other) :
    Indexed ⟨after, (name, symbol) :: workspace.symbols⟩ := by
  intro other
  rw [stands, List.lookup_cons]
  split
  · next same => rw [if_pos (eq_of_beq same)]
  · next apart => rw [if_neg (by simpa using apart), indexed other]

theorem Indexed.of_sameNames (indexed : workspace.Indexed) {after : Program}
    (same : workspace.program.SameNames after) : Indexed ⟨after, workspace.symbols⟩ :=
  fun name => (indexed name).trans (same.symbol?_eq name).symm

theorem Indexed.lookup_of_free (indexed : workspace.Indexed) {name : String}
    (free : workspace.program.hasSymbol name = false) : workspace.symbols.lookup name = none := by
  rw [indexed, Program.symbol?_eq_none_iff, free]

theorem Indexed.lookup_of_taken (indexed : workspace.Indexed) {name : String}
    (taken : workspace.program.hasSymbol name = true) :
    ∃ symbol, workspace.symbols.lookup name = some symbol := by
  rw [← Option.isSome_iff_exists, indexed, Program.isSome_symbol?, taken]

end Workspace

namespace Types

variable {types : Types} {id : TypeId} {shape : TypeShape}

theorem setStructBody_of_unnamed (found : types.shape id = .ok shape)
    (unnamed : shape.structName? = none) (fields : List TypeId) (packed : Bool) :
    types.setStructBody id fields packed = .error (.notANamedStruct id) := by
  rw [setStructBody, found]
  change (match shape.structName? with | none => _ | some name => _) = _
  rw [unnamed]
  rfl

end Types

/-! ## Operations in place and operations that answer a program -/

/-- An operation does to the program of a workspace what another one answers.  If that is an error,
it leaves the workspace as it was.  In either case index and program go together afterwards. -/
structure Workspace.Does {α : Type} (workspace : Workspace) (edit : Editing α)
    (answer : Except ProgramError (α × Program)) : Prop where
  /-- A success has the same answer and leaves the same program, with an index that fits it. -/
  ok : ∀ {value after}, answer = .ok (value, after) → ∃ symbols,
    edit.run.run workspace = (.ok value, ⟨after, symbols⟩) ∧ Workspace.Indexed ⟨after, symbols⟩
  /-- A failure leaves everything as it was, the index included. -/
  error : ∀ {error}, answer = .error error → edit.run.run workspace = (.error error, workspace)

namespace Workspace.Does

variable {α β : Type} {workspace : Workspace}

theorem of_ok {edit : Editing α} {value : α} {after : Program} {symbols : List (String × Symbol)}
    (run : edit.run.run workspace = (.ok value, ⟨after, symbols⟩))
    (indexed : Workspace.Indexed ⟨after, symbols⟩) :
    workspace.Does edit (.ok (value, after)) where
  ok same := by
    cases same
    exact ⟨symbols, run, indexed⟩
  error same := nomatch same

theorem of_error {edit : Editing α} {error : ProgramError}
    (run : edit.run.run workspace = (.error error, workspace)) :
    workspace.Does edit (.error error) where
  ok same := nomatch same
  error same := by
    cases same
    exact run

end Workspace.Does

namespace Workspace.Indexed

open Editing

variable {workspace : Workspace} (indexed : workspace.Indexed)
include indexed

/-- The name is claimed in the index, and the global is pushed behind that; if the name is taken,
nothing has been changed. -/
theorem does_addGlobal (name : String) (type : TypeId) (threadLocal : Bool) :
    workspace.Does (addGlobal name type threadLocal)
      (workspace.program.addGlobal name type threadLocal) := by
  rw [Program.addGlobal]
  cases taken : workspace.program.hasSymbol name with
  | true =>
    obtain ⟨symbol, found⟩ := indexed.lookup_of_taken taken
    refine .of_error ?_
    rw [addGlobal, run_bind_of_ok run_get,
      run_bind_of_error (run_claimSymbol_of_some found _)]
  | false =>
    refine .of_ok ?_ (indexed.claim (Program.symbol?_push_global taken))
    rw [addGlobal, run_bind_of_ok run_get,
      run_bind_of_ok (run_claimSymbol_of_none (indexed.lookup_of_free taken) _)]
    rfl

/-- The name is claimed, the arguments are pushed, and then the function.  Whether the type is a
function type is checked before the name is claimed. -/
theorem does_addFunction (name : String) (type : TypeId) :
    workspace.Does (addFunction name type) (workspace.program.addFunction name type) := by
  rw [Program.addFunction, addFunction]
  cases found : workspace.program.types.shape type with
  | error handle => exact .of_error (run_bind_of_error (run_shape_of_error found))
  | ok shape =>
    have run (next : TypeShape → Editing FuncId) :
        (Editing.shape type >>= next).run.run workspace = (next shape).run.run workspace :=
      run_bind_of_ok (run_shape_of_ok found)
    cases shape with
    | func params ret vararg =>
      cases taken : workspace.program.hasSymbol name with
      | true =>
        obtain ⟨symbol, known⟩ := indexed.lookup_of_taken taken
        refine .of_error ?_
        rw [run, run_bind_of_ok run_get,
          run_bind_of_error (run_claimSymbol_of_some known _)]
      | false =>
        refine .of_ok ?_ (indexed.claim
          (@Program.symbol?_push_function _ ⟨name, type, _, []⟩ taken _))
        rw [run, run_bind_of_ok run_get,
          run_bind_of_ok (run_claimSymbol_of_none (indexed.lookup_of_free taken) _),
          run_bind_of_ok (run_pushArgs _ _ _ _)]
        simp only [Nat.zero_add]
        rfl
    | _ => exact .of_error (run _)

/-- An integer is reduced to the width of its type before it is interned, in the same way on both
sides.  The in-place form asks for the shape, checks the width and interns, one after the other. -/
theorem does_constInt (type : TypeId) (value : Int) :
    workspace.Does (constInt type value) (workspace.program.constInt type value) := by
  rw [constInt]
  cases found : workspace.program.types.shape type with
  | error handle =>
    rw [Program.constInt, found]
    exact .of_error (run_bind_of_error (run_shape_of_error found))
  | ok shape =>
    have run (next : TypeShape → Editing ConstId) :
        (Editing.shape type >>= next).run.run workspace = (next shape).run.run workspace :=
      run_bind_of_ok (run_shape_of_ok found)
    cases shape with
    | int bits =>
      rw [Program.constInt_of_int found]
      split
      · next wide => exact .of_error ((run _).trans (by dsimp only; rw [if_pos wide]; rfl))
      · next narrow =>
        exact .of_ok ((run _).trans (by dsimp only; rw [if_neg narrow]; rfl))
          (indexed.of_sameNames
            (show Program.SameNames _ (workspace.program.internConstant _).2 from ⟨rfl, rfl⟩))
    | _ =>
      rw [Program.constInt, found]
      exact .of_error (run _)

/-- Setting a body touches the arena of types, and no name of the program.  All fields are checked
before the body is written. -/
theorem does_setStructBody (id : TypeId) (fields : List TypeId) (packed : Bool) :
    workspace.Does (setStructBody id fields packed)
      (workspace.program.types.setStructBody id fields packed >>= fun types =>
        pure ((), { workspace.program with types })) := by
  rw [setStructBody]
  cases found : workspace.program.types.shape id with
  | error handle =>
    rw [Types.setStructBody, found]
    exact .of_error (run_bind_of_error (run_shape_of_error found))
  | ok shape =>
    have run (next : TypeShape → Editing Unit) :
        (Editing.shape id >>= next).run.run workspace = (next shape).run.run workspace :=
      run_bind_of_ok (run_shape_of_ok found)
    cases named : shape.structName? with
    | none =>
      rw [Types.setStructBody_of_unnamed found named]
      exact .of_error ((run _).trans (by dsimp only; rw [named]; rfl))
    | some name =>
      have checked := @run_checkFields workspace id name fields
      rw [Types.setStructBody_of_named found named]
      cases outcome : fields.forM (workspace.program.types.checkField id name) with
      | error error =>
        rw [outcome] at checked
        exact .of_error ((run _).trans (by dsimp only; rw [named]; exact run_bind_of_error checked))
      | ok done =>
        rw [outcome] at checked
        exact .of_ok ((run _).trans (by dsimp only; rw [named]; exact run_bind_of_ok checked))
          (indexed.of_sameNames (show Program.SameNames _ { workspace.program with types := _ } from
            ⟨rfl, rfl⟩))

/-- An operation that leaves names alone may as well be done at once.  Interning, blocks and
instructions are of this sort. -/
theorem does_attempt {α : Type} {operation : Program → Except ProgramError (α × Program)}
    (same : ∀ {value after}, operation workspace.program = .ok (value, after) →
      workspace.program.SameNames after) :
    workspace.Does (attempt operation) (operation workspace.program) := by
  have run : (attempt operation).run.run workspace = match operation workspace.program with
      | .ok (value, program) => (.ok value, { workspace with program })
      | .error error => (.error error, workspace) := by
    rw [attempt, run_bind_of_ok run_get, run_bind, run_ofExcept]
    cases operation workspace.program <;> rfl
  cases outcome : operation workspace.program with
  | ok answer =>
    rw [outcome] at run
    exact .of_ok run (indexed.of_sameNames (same outcome))
  | error error =>
    rw [outcome] at run
    exact .of_error run

end Workspace.Indexed

open Editing in
/-- The answer of an operation may be ignored. -/
theorem Workspace.Does.ignore {α : Type} {workspace : Workspace} {edit : Editing α}
    {answer : Except ProgramError (α × Program)} (does : workspace.Does edit answer) :
    workspace.Does (edit >>= fun _ => pure ()) (answer >>= fun value => pure ((), value.2)) := by
  cases answer with
  | ok answer =>
    obtain ⟨symbols, run, indexed⟩ := does.ok rfl
    exact .of_ok (run_bind_of_ok run) indexed
  | error error => exact .of_error (run_bind_of_error (does.error rfl))

end IrStream
