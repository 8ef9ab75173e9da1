import IrStream.Proofs.Program.InPlace

/-!
# Sequences of calls

`Call` is what the users of a program can call, with handles that the program gave out, and
`Workspace.Run` is what becomes of a workspace under calls in a row.  A call that fails is followed
by the next one like any other.

* A call that succeeds is one of the operations that make programs (`Call.step`), so the workspace
  always holds a program as it is built (`Workspace.Run.built`).
* The four calls that check what they are given (`Call.Checks`) check before they change anything.

Main statement: after any calls the arenas agree, names are looked up exactly, and the calls that
check something change nothing if they fail (`arranged_of_run`).

The difference between a run of calls and a sequence of steps is what happens in between to calls
that fail.  A step is an operation that succeeded.  A call that failed may have changed something
before it noticed, and the next call is made on whatever that left; so the statement that failed
calls leave the workspace alone is not a matter of convention here but something that may be false.
For one call it is false: reading a type from a text that is no type may leave the types of its
parts behind.  These are types like any others, and the program is a built one all the same.

`Call.perform` makes a call in place, and `Call.apply` answers a program.  That they come to the
same is `Call.does_perform`, for each call but the one that reads a text.
-/

set_option autoImplicit false

namespace IrStream

/-- What the users of a program can call. -/
inductive Call where
  /-- Exchange the description of the target. -/
  | setLayout (layout : DataLayout)
  /-- The handle of a type, made if there is none. -/
  | internType (shape : TypeShape)
  /-- The handle of a type that is written as a text.  A text that is refused may leave types
  behind. -/
  | readType (text : List Char)
  /-- Give a named struct its fields, or other fields. -/
  | setStructBody (id : TypeId) (fields : List TypeId) (packed : Bool)
  /-- The handle of a constant, made if there is none. -/
  | internConstant (constant : Constant)
  /-- The constant of an integer type that has the value modulo the width. -/
  | constInt (type : TypeId) (value : Int)
  /-- A global under a name that nothing has. -/
  | addGlobal (name : String) (type : TypeId) (threadLocal : Bool)
  /-- What a global begins with. -/
  | setInitializer (id : GlobalId) (init : ConstId)
  /-- A function under a name that nothing has, with its arguments. -/
  | addFunction (name : String) (type : TypeId)
  /-- Name an argument. -/
  | setArgName (id : ArgId) (name : String)
  /-- A block at the end of a function. -/
  | addBlock (func : FuncId) (label : Option String)
  /-- An instruction at the end of a block. -/
  | addInst (block : BlockId) (kind : InstKind) (type : TypeId) (operands : List Operand)
    (name : Option String)
  /-- Exchange the operands of an instruction. -/
  | setOperands (id : InstId) (operands : List Operand)
  /-- Exchange the result type of an instruction. -/
  | setInstType (id : InstId) (type : TypeId)

namespace Call

/-- The handles that a call is given are handles of the program. -/
def InRange (program : Program) : Call → Prop
  | setLayout _ => True
  | internType shape => ∀ child ∈ shape.children, program.types.Has child
  | readType _ => True
  | setStructBody id fields _ => program.types.Has id ∧ ∀ field ∈ fields, program.types.Has field
  | internConstant constant => constant.InRange program
  | constInt type _ => program.types.Has type
  | addGlobal _ type _ => program.types.Has type
  | setInitializer id init => id.index < program.globals.size ∧ init.index < program.constants.size
  | addFunction _ type => program.types.Has type
  | setArgName id _ => id.index < program.args.size
  | addBlock func _ => func.index < program.functions.size
  | addInst block kind type operands _ => block.index < program.blocks.size
    ∧ kind.InRange program ∧ program.types.Has type
    ∧ ∀ operand ∈ operands, operand.InRange program
  | setOperands id operands => id.index < program.insts.size
    ∧ ∀ operand ∈ operands, operand.InRange program
  | setInstType id type => id.index < program.insts.size ∧ program.types.Has type

/-- The program that a call leads to. -/
def apply (program : Program) : Call → Except ProgramError (Unit × Program)
  | setLayout layout => return ((), { program with layout })
  | internType shape => return ((), { program with types := (program.types.intern shape).2 })
  | readType text => do
    let (types, id) := program.types.readText text
    let _ ← id
    return ((), { program with types })
  | setStructBody id fields packed => do
    let types ← program.types.setStructBody id fields packed
    return ((), { program with types })
  | internConstant constant => return ((), (program.internConstant constant).2)
  | constInt type value => return ((), (← program.constInt type value).2)
  | addGlobal name type threadLocal => return ((), (← program.addGlobal name type threadLocal).2)
  | setInitializer id init =>
    return ((), ← (program.setInitializer id init : Except Dangling Program))
  | addFunction name type => return ((), (← program.addFunction name type).2)
  | setArgName id name => return ((), ← (program.setArgName id name : Except Dangling Program))
  | addBlock func label => return ((), (← (program.addBlock func label : Except Dangling _)).2)
  | addInst block kind type operands name =>
    return ((), (← (program.addInst block kind type operands name : Except Dangling _)).2)
  | setOperands id operands =>
    return ((), ← (program.setOperands id operands : Except Dangling Program))
  | setInstType id type => return ((), ← (program.setInstType id type : Except Dangling Program))

/-- Make a call. -/
def perform : Call → Editing Unit
  | readType text => do
    let _ ← Editing.readText text
  | setStructBody id fields packed => Editing.setStructBody id fields packed
  | constInt type value => do
    let _ ← Editing.constInt type value
  | addGlobal name type threadLocal => do
    let _ ← Editing.addGlobal name type threadLocal
  | addFunction name type => do
    let _ ← Editing.addFunction name type
  | call => .attempt fun program => call.apply program

/-- Calls that may find fault with what they are given. -/
inductive Checks : Call → Prop
  /-- The name of a global may be taken. -/
  | addGlobal (name : String) (type : TypeId) (threadLocal : Bool) :
      Checks (.addGlobal name type threadLocal)
  /-- The name of a function may be taken, and its type may be none of a function. -/
  | addFunction (name : String) (type : TypeId) : Checks (.addFunction name type)
  /-- The type may be none of integers, or the width too large. -/
  | constInt (type : TypeId) (value : Int) : Checks (.constInt type value)
  /-- The struct may have no name, or a field may be refused. -/
  | setStructBody (id : TypeId) (fields : List TypeId) (packed : Bool) :
      Checks (.setStructBody id fields packed)

end Call

/-- The workspace after calls, each with handles that the program gave out before, whether or not
the calls succeed. -/
inductive Workspace.Run : Workspace → List Call → Workspace → Prop
  /-- No call is made. -/
  | nil (workspace : Workspace) : Run workspace [] workspace
  /-- The next call starts with what the one before it left, also after an error. -/
  | cons {workspace final : Workspace} {call : Call} {rest : List Call}
      (inRange : call.InRange workspace.program)
      (later : Run (call.perform.run.run workspace).2 rest final) :
      Run workspace (call :: rest) final

/-! ## One call

By cases on the call.  The calls differ in what they answer, which is of no interest here. -/

namespace Call

variable {α : Type} {program after : Program} {call : Call} {value : Unit}

/-- What a call answers is the program that the operation answers. -/
theorem eq_ok_of_program {answer : Except Dangling Program}
    (run : (do return ((), ← answer) : Except ProgramError (Unit × Program)) = .ok (value, after)) :
    answer = .ok after := by
  simpa only [bind_eq_ok_iff, dangling_eq_ok_iff, pure_eq_ok_iff, Prod.mk.injEq, true_and,
    exists_eq_right'] using run

theorem eq_ok_of_answer {answer : Except Dangling (α × Program)}
    (run : (do return ((), (← answer).2) : Except ProgramError (Unit × Program))
      = .ok (value, after)) : ∃ id, answer = .ok (id, after) := by
  simpa only [bind_eq_ok_iff, dangling_eq_ok_iff, pure_eq_ok_iff, Prod.mk.injEq, true_and,
    Prod.exists, exists_eq_right'] using run

theorem eq_ok_of_checked {answer : Except ProgramError (α × Program)}
    (run : (do return ((), (← answer).2) : Except ProgramError (Unit × Program))
      = .ok (value, after)) : ∃ id, answer = .ok (id, after) := by
  simpa only [bind_eq_ok_iff, pure_eq_ok_iff, Prod.mk.injEq, true_and, Prod.exists,
    exists_eq_right'] using run

/-- A call that succeeds is an operation. -/
theorem step (inRange : call.InRange program) (run : call.apply program = .ok (value, after)) :
    program.Step after := by
  -- each call is a step of its own, and what it checks itself need not be asked of the caller
  cases call with
  | setLayout layout =>
    cases run
    exact .setLayout program layout
  | internType shape =>
    cases run
    exact .types (.intern shape inRange)
  | readType text =>
    simp only [apply, bind_eq_ok_iff, pure_eq_ok_iff, Prod.mk.injEq] at run
    obtain ⟨_, -, -, rfl⟩ := run
    exact .types (.readText _ text)
  | setStructBody id fields packed =>
    simp only [apply, bind_eq_ok_iff, pure_eq_ok_iff, Prod.mk.injEq] at run
    obtain ⟨types, run, -, rfl⟩ := run
    exact .types (.setStructBody inRange.2 run)
  | internConstant constant =>
    cases run
    exact .internConstant inRange
  | constInt type value =>
    obtain ⟨id, run⟩ := eq_ok_of_checked run
    exact .constInt run
  | addGlobal name type threadLocal =>
    obtain ⟨id, run⟩ := eq_ok_of_checked run
    exact .addGlobal inRange run
  | setInitializer id init => exact .setInitializer inRange.2 (eq_ok_of_program run)
  | addFunction name type =>
    obtain ⟨id, run⟩ := eq_ok_of_checked run
    exact .addFunction run
  | setArgName id name => exact .setArgName (eq_ok_of_program run)
  | addBlock func label =>
    obtain ⟨id, run⟩ := eq_ok_of_answer run
    exact .addBlock run
  | addInst block kind type operands name =>
    obtain ⟨id, run⟩ := eq_ok_of_answer run
    exact .addInst inRange.2.1 inRange.2.2.1 inRange.2.2.2 run
  | setOperands id operands => exact .setOperands inRange.2 (eq_ok_of_program run)
  | setInstType id type => exact .setInstType inRange.2 (eq_ok_of_program run)

end Call

namespace Workspace.Indexed

open Editing

variable {workspace : Workspace} (indexed : workspace.Indexed)
include indexed

/-- Each call does what it is said to do, but that a text which is no type may leave types. -/
theorem does_perform {call : Call} (other : ∀ text, call ≠ .readType text) :
    workspace.Does call.perform (call.apply workspace.program) := by
  have kept (call : Call) (same : ∀ {value after},
      call.apply workspace.program = .ok (value, after) → workspace.program.SameNames after) :
      workspace.Does (attempt fun program => call.apply program) (call.apply workspace.program) :=
    indexed.does_attempt same
  cases call with
  | readType text => exact absurd rfl (other text)
  | setStructBody id fields packed => exact indexed.does_setStructBody id fields packed
  | constInt type value => exact (indexed.does_constInt type value).ignore
  | addGlobal name type threadLocal =>
    exact (indexed.does_addGlobal name type threadLocal).ignore
  | addFunction name type => exact (indexed.does_addFunction name type).ignore
  | setLayout | internType | internConstant =>
    refine kept _ fun run => ?_
    cases run
    exact ⟨rfl, rfl⟩
  | setInitializer =>
    exact kept _ fun run => Program.sameNames_setInitializer (Call.eq_ok_of_program run)
  | setArgName =>
    refine kept _ fun run => ?_
    obtain ⟨_, -, rfl⟩ := Program.setArgName_eq_ok (Call.eq_ok_of_program run)
    exact ⟨rfl, rfl⟩
  | addBlock =>
    refine kept _ fun run => ?_
    obtain ⟨id, run⟩ := Call.eq_ok_of_answer run
    exact Program.sameNames_addBlock run
  | addInst =>
    refine kept _ fun run => ?_
    obtain ⟨id, run⟩ := Call.eq_ok_of_answer run
    obtain ⟨_, -, -, rfl⟩ := Program.addInst_eq_ok run
    exact ⟨rfl, rfl⟩
  | setOperands =>
    refine kept _ fun run => ?_
    obtain ⟨_, -, rfl⟩ := Program.setOperands_eq_ok (Call.eq_ok_of_program run)
    exact ⟨rfl, rfl⟩
  | setInstType =>
    refine kept _ fun run => ?_
    obtain ⟨_, -, rfl⟩ := Program.setInstType_eq_ok (Call.eq_ok_of_program run)
    exact ⟨rfl, rfl⟩

omit indexed in
/-- Reading a type changes the types, whether or not there is one. -/
theorem run_readType (text : List Char) :
    ∃ answer, (Call.readType text).perform.run.run workspace = (answer, { workspace with
      program := { workspace.program with
        types := (workspace.program.types.readText text).1 } }) := by
  have read : (readText text).run.run workspace = ((workspace.program.types.readText text).2,
      { workspace with program := { workspace.program with
        types := (workspace.program.types.readText text).1 } }) := by
    rw [readText, run_bind_of_ok run_get]
    exact (run_bind_of_ok (run_set _)).trans (run_ofExcept _)
  rw [Call.perform, run_bind, read]
  cases (workspace.program.types.readText text).2 with
  | ok id => exact ⟨_, rfl⟩
  | error error => exact ⟨_, rfl⟩

/-- **What a call does**, whether or not it succeeds: nothing, or an operation on the program.  The
index stays exact. -/
theorem perform {call : Call} (inRange : call.InRange workspace.program) :
    (call.perform.run.run workspace).2.Indexed
      ∧ ((call.perform.run.run workspace).2 = workspace
        ∨ workspace.program.Step (call.perform.run.run workspace).2.program) := by
  by_cases other : ∀ text, call ≠ .readType text
  · have does := indexed.does_perform other
    cases outcome : call.apply workspace.program with
    | ok answer =>
      obtain ⟨symbols, run, kept⟩ := does.ok outcome
      rw [run]
      exact ⟨kept, .inr (call.step inRange outcome)⟩
    | error error =>
      rw [does.error outcome]
      exact ⟨indexed, .inl rfl⟩
  · obtain ⟨text, same⟩ := not_forall.mp other
    obtain rfl := not_not.mp same
    obtain ⟨answer, run⟩ := @run_readType workspace text
    rw [run]
    exact ⟨indexed.of_sameNames (show Program.SameNames _ { workspace.program with types := _ } from
      ⟨rfl, rfl⟩), .inr (.types (.readText _ text))⟩

end Workspace.Indexed

/-- After any calls the program is one that operations make, and the index is exact. -/
theorem Workspace.Run.built {workspace final : Workspace} {calls : List Call}
    (run : workspace.Run calls final) (built : workspace.program.Built)
    (indexed : workspace.Indexed) : final.program.Built ∧ final.Indexed := by
  induction run with
  | nil => exact ⟨built, indexed⟩
  | cons inRange later ih =>
    obtain ⟨kept, same | step⟩ := indexed.perform inRange
    · rw [same] at ih
      exact ih built indexed
    · exact ih (built.step step) kept

/-! ## The main statement -/

namespace Workspace

variable {workspace : Workspace}

theorem Indexed.findGlobal?_eq (indexed : workspace.Indexed) (name : String) :
    workspace.findGlobal? name = workspace.program.findGlobal? name := by
  rw [findGlobal?, indexed, Program.symbol?]
  cases workspace.program.findGlobal? name with
  | some id => rfl
  | none => cases workspace.program.findFunction? name <;> rfl

/-- No function hides behind a global of the same name. -/
theorem Indexed.findFunction?_eq (indexed : workspace.Indexed)
    (distinct : workspace.program.Distinct) (name : String) :
    workspace.findFunction? name = workspace.program.findFunction? name := by
  rw [findFunction?, indexed, Program.symbol?]
  cases found : workspace.program.findGlobal? name with
  | none => cases workspace.program.findFunction? name <;> rfl
  | some id =>
    have taken : name ∈ workspace.program.globals.toList.map (·.name) := by
      by_contra absent
      rw [Program.findGlobal?_eq_none_iff.mpr absent] at found
      cases found
    have apart := (List.nodup_append.mp distinct).2.2 name taken
    rw [Program.findFunction?_eq_none_iff.mpr fun other => apart name other rfl]
    rfl

end Workspace

/-- **The arenas agree, and calls that fail change nothing.**  This holds after any calls, whether
or not they succeeded, each with handles that the program gave out before.  What the index finds
for a name is what has that name.  A call that checks something does what the operation of
`Program` does; if it fails, the workspace is as it was. -/
theorem arranged_of_run {layout : DataLayout} {calls : List Call} {workspace : Workspace}
    (run : (Workspace.empty layout).Run calls workspace) :
    workspace.program.Arranged
      ∧ (∀ name id, workspace.findGlobal? name = some id ↔
        ∃ global, workspace.program.global id = .ok global ∧ global.name = name)
      ∧ (∀ name id, workspace.findFunction? name = some id ↔
        ∃ function, workspace.program.function id = .ok function ∧ function.name = name)
      ∧ ∀ call : Call, call.Checks →
        workspace.Does call.perform (call.apply workspace.program)
        ∧ ∀ error after, call.perform.run.run workspace = (.error error, after) →
          after = workspace := by
  obtain ⟨built, indexed⟩ := run.built (.empty layout) (Workspace.indexed_empty layout)
  have arranged := built.arranged
  refine ⟨arranged, fun name id => ?_, fun name id => ?_, fun call checks => ?_⟩
  · rw [indexed.findGlobal?_eq, arranged.findGlobal]
  · rw [indexed.findFunction?_eq built.distinct, arranged.findFunction]
  · have other (text : List Char) : call ≠ .readType text := by cases checks <;> simp
    have does := indexed.does_perform other
    refine ⟨does, fun error after failed => ?_⟩
    cases outcome : call.apply workspace.program with
    | ok answer =>
      obtain ⟨symbols, done, -⟩ := does.ok outcome
      cases failed.symm.trans done
    | error cause =>
      exact congrArg Prod.snd (failed.symm.trans (does.error outcome))

/-- A function, a global and another function that may not have its name or its type, a block with
an instruction, and a struct that would contain itself. -/
def Call.clashing : List Call :=
  [.internType (.func [.i32] .i32 false), .addFunction "f" ⟨6⟩, .addGlobal "f" .i32 false,
    .addFunction "g" .i32, .addBlock ⟨0⟩ none, .addInst ⟨0⟩ .ret .void [.arg ⟨0⟩] none,
    .internType (.struct ⟨some "S", [], false, false⟩), .setStructBody ⟨7⟩ [.i32, ⟨7⟩] false]

/-- The workspace that these calls leave. -/
def Workspace.clashed : Workspace :=
  Call.clashing.foldl (fun workspace call => (call.perform.run.run workspace).2) (.empty .standard)

theorem Workspace.run_clashed : (empty .standard).Run Call.clashing clashed := by
  have signature : ∀ child ∈ (TypeShape.func [.i32] .i32 false).children,
      (Program.empty .standard).types.Has child := by decide +kernel
  refine .cons signature (.cons ?_ (.cons ?_ (.cons ?_ (.cons ?_ (.cons ⟨?_, trivial, ?_, ?_⟩
    (.cons ?_ (.cons ⟨?_, ?_⟩ (.nil _))))))))
  all_goals try unfold Call.InRange
  all_goals decide +kernel

/-- The clash goes on: the name is still taken, and claiming it still changes nothing. -/
theorem arranged_of_run_clashed :
    (Workspace.empty .standard).Run Call.clashing Workspace.clashed
      ∧ Workspace.clashed.program.Arranged
      ∧ (Call.addGlobal "f" .i32 false).perform.run.run Workspace.clashed
        = (.error (.duplicateName "f"), Workspace.clashed) := by
  obtain ⟨arranged, -, -, checks⟩ := arranged_of_run Workspace.run_clashed
  obtain ⟨does, unchanged⟩ := checks _ (.addGlobal "f" .i32 false)
  exact ⟨Workspace.run_clashed, arranged, does.error (by decide +kernel)⟩

end IrStream
