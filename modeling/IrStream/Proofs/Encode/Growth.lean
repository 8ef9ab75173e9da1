import IrStream.Proofs.Encode.Step
import IrStream.Proofs.Encode.Table
import IrStream.Proofs.Stream.Description

/-!
# Encoding only adds to the tables

A step that succeeds `EncodeState.Advances`: each table is the old one with entries appended, and
tables that were `Sound` still are.  A description that held of a record holds then of the record in
the larger tables (`Program.DescribesInst.mono` and its like), so the records of one step may be
described with the tables that the last step leaves.

`Encoding.mapM_spec` is the induction behind every section: what each step of a row guarantees, and
later steps do not take away, the row guarantees for all its records.

A stream is written with positions in tables that are not complete yet, and a record says nothing
about how long the tables were when it was made.  That works because entries are only ever appended,
so a position that was handed out is a position for good.  There are three relations between states
for this.

* `Grows` — only the tables, and only that entries were appended.  It is what descriptions need.
* `Advances` — that, and that soundness is kept: no key twice, and with a type all its parts.
* `SameTables` — no table changed.  Steps that log or count are of this sort, and reading is too.

The lemmas about primitive steps say for each of them which one holds.  All three are reflexive and
transitive, so a run of a block has the relation that its steps have.

## Statements

* `advances_registerConstant`, `advances_registerType`, `advances_registerGlobal`: what registering
  appends.
* `sameTables_registerType`: a type that has a position is not registered again.
* `Encoding.mapM_spec`, `Encoding.mapM_advances`: rows.
-/

set_option autoImplicit false

namespace IrStream

namespace EncodeState

variable {program : Program} {s t u : EncodeState}

/-- The tables of the second state are those of the first with entries appended. -/
structure Grows (s t : EncodeState) : Prop where
  types : s.types.Grows t.types
  constants : s.constants.Grows t.constants
  globals : s.globals.Grows t.globals

theorem Grows.refl (s : EncodeState) : s.Grows s :=
  ⟨.refl _, .refl _, .refl _⟩

theorem Grows.trans (first : s.Grows t) (second : t.Grows u) : s.Grows u :=
  ⟨first.types.trans second.types, first.constants.trans second.constants,
    first.globals.trans second.globals⟩

/-- No table has a key twice, and with a type the type table has all that the type contains. -/
structure Sound (program : Program) (state : EncodeState) : Prop where
  /-- No type is in its table twice. -/
  types : state.types.Distinct
  /-- No constant is in its table twice. -/
  constants : state.constants.Distinct
  /-- No global is in its table twice. -/
  globals : state.globals.Distinct
  /-- With a type, all its parts are in the table. -/
  closed : program.types.Closed state.types

theorem Sound.initial (program : Program) : Sound program .initial where
  types := List.nodup_nil
  constants := List.nodup_nil
  globals := List.nodup_nil
  closed _ mem := absurd mem Table.not_mem_empty

/-- What a step that succeeds makes of the state. -/
structure Advances (program : Program) (s t : EncodeState) : Prop where
  /-- Positions that were given out stay. -/
  grows : s.Grows t
  /-- Whatever is in the tables is what the program has under that handle. -/
  sound : Sound program s → Sound program t

theorem Advances.refl (s : EncodeState) : Advances program s s :=
  ⟨.refl s, id⟩

theorem Advances.trans (first : Advances program s t) (second : Advances program t u) :
    Advances program s u :=
  ⟨first.grows.trans second.grows, second.sound ∘ first.sound⟩

/-- Only counts and log differ. -/
structure SameTables (s t : EncodeState) : Prop where
  types : t.types = s.types
  constants : t.constants = s.constants
  globals : t.globals = s.globals

theorem SameTables.refl (s : EncodeState) : s.SameTables s :=
  ⟨rfl, rfl, rfl⟩

theorem SameTables.trans (first : s.SameTables t) (second : t.SameTables u) : s.SameTables u :=
  ⟨second.types.trans first.types, second.constants.trans first.constants,
    second.globals.trans first.globals⟩

theorem SameTables.grows (same : s.SameTables t) : s.Grows t := by
  obtain ⟨types, constants, globals⟩ := same
  constructor
  · rw [types]
    exact .refl _
  · rw [constants]
    exact .refl _
  · rw [globals]
    exact .refl _

theorem SameTables.advances (same : s.SameTables t) : Advances program s t where
  grows := same.grows
  sound sound := by
    obtain ⟨types, constants, globals⟩ := same
    exact ⟨types ▸ sound.types, constants ▸ sound.constants, globals ▸ sound.globals,
      types ▸ sound.closed⟩

end EncodeState

/-! ## Descriptions in larger tables

One lemma for each description, and each of them follows from the fact that look-ups in a larger
table answer the same. -/

namespace Program

variable {program : Program} {tables larger : EncodeState} {func : FuncId} {function : Function}
  {here : Location}

/-- A position that was written means the same in larger tables. -/
theorem Denotes.mono {source : OperandSource} {record : OperandRecord} (grows : tables.Grows larger)
    (h : program.Denotes tables func function here source record) :
    program.Denotes larger func function here source record := by
  cases h with
  | constant found plain position =>
    exact .constant found plain (grows.constants.position? position)
  | global found position => exact .global found (grows.globals.position? position)
  | function found position => exact .function found position
  | arg found owner => exact .arg found owner
  | inst located earlier hasResult => exact .inst located earlier hasResult
  | block position => exact .block position
  | text => exact .text
  | type position => exact .type (grows.types.position? position)
  | entry position => exact .entry (grows.constants.position? position)
  | predicate => exact .predicate
  | snapshot => exact .snapshot

theorem DescribesInst.mono {id : InstId} {record : InstRecord} (grows : tables.Grows larger)
    (h : program.DescribesInst tables func function here id record) :
    program.DescribesInst larger func function here id record := by
  obtain ⟨inst, recipe, found, made, follows⟩ := h
  exact ⟨inst, recipe, found, made, grows.types.position? follows.type, follows.opcode,
    follows.operands.imp fun _ _ => .mono grows⟩

theorem DescribesInsts.mono {block position : Nat} {insts : List InstId}
    {records : List InstRecord} (grows : tables.Grows larger)
    (h : program.DescribesInsts tables func function block position insts records) :
    program.DescribesInsts larger func function block position insts records :=
  h.imp fun _ _ => .mono grows

theorem DescribesFunction.mono {record : FunctionRecord} (grows : tables.Grows larger)
    (h : program.DescribesFunction tables func record) :
    program.DescribesFunction larger func record := by
  obtain ⟨function, found, name, type, blocks⟩ := h
  exact ⟨function, found, name, grows.types.position? type, blocks.imp fun _ _ => .mono grows⟩

theorem DescribesConstant.mono {constant : Constant} {record : ConstantRecord}
    (grows : tables.Grows larger) (h : program.DescribesConstant tables constant record) :
    program.DescribesConstant larger constant record :=
  ⟨grows.types.position? h.1, h.2⟩

theorem DescribesTypes.mono {ids : List TypeId} {positions : List Nat} (grows : tables.Grows larger)
    (h : DescribesTypes tables ids positions) : DescribesTypes larger ids positions :=
  h.imp fun _ _ => grows.types.position?

/-- A type record means the same in larger tables. -/
theorem DescribesType.mono {word : WordSize} {id : TypeId} {record : TypeRecord}
    (grows : tables.Grows larger) (h : program.DescribesType tables word id record) :
    program.DescribesType larger word id record := by
  cases h with
  | void found => exact .void found
  | int found => exact .int found
  | ptr found width => exact .ptr found width
  | func found parameters result =>
    exact .func found (parameters.mono grows) (grows.types.position? result)
  | struct found laidOut fields => exact .struct found laidOut (fields.mono grows)
  | bodiless found missing => exact .bodiless found missing
  | array found => exact .array found
  | float found => exact .float found

end Program

/-! ## Primitive steps

Registering is the only way in which tables change. -/

namespace Encoding

open EncodeState

variable {program : Program} {s t : EncodeState}

theorem sameTables_log {event : LogEvent} {done : Unit} (run : Yields (log event) s done t) :
    s.SameTables t := by
  rw [yields_log_iff.mp run]
  exact ⟨rfl, rfl, rfl⟩

theorem sameTables_count {step : EncodeStats → EncodeStats} {done : Unit}
    (run : Yields (count step) s done t) : s.SameTables t := by
  rw [yields_count_iff.mp run]
  exact ⟨rfl, rfl, rfl⟩

/-- A constant is appended if it is new. -/
theorem advances_registerConstant {constant : Constant} {index : Nat}
    (run : Yields (registerConstant constant) s index t) :
    Advances program s t ∧ t.constants.position? constant = some index := by
  obtain ⟨rfl, rfl⟩ := yields_registerConstant_iff.mp run
  refine ⟨⟨⟨.refl _, Table.grows_insert _ _, .refl _⟩, fun sound => ?_⟩, Table.position?_insert _ _⟩
  exact ⟨sound.types, sound.constants.insert _, sound.globals, sound.closed⟩

/-- A type is appended with all its parts, as far as they are new. -/
theorem advances_registerType {id : TypeId} {index : Nat}
    (run : Yields (registerType program id) s index t) :
    Advances program s t ∧ t.types.position? id = some index
      ∧ t.constants = s.constants ∧ t.globals = s.globals := by
  obtain ⟨types, registered, rfl⟩ := yields_registerType_iff.mp run
  obtain ⟨registers, position⟩ := Types.register_registers registered
  refine ⟨⟨⟨registers.grows, .refl _, .refl _⟩, fun sound => ?_⟩, position, rfl, rfl⟩
  exact ⟨registers.distinct sound.types, sound.constants, sound.globals,
    registers.closed_of_closed sound.closed⟩

/-- A type that has a position is not registered again. -/
theorem sameTables_registerType {id : TypeId} {index : Nat} (known : id ∈ s.types)
    (run : Yields (registerType program id) s index t) :
    s.SameTables t ∧ t.types.position? id = some index := by
  obtain ⟨types, registered, rfl⟩ := yields_registerType_iff.mp run
  obtain ⟨position, found⟩ := Table.mem_iff_position?.mp known
  rw [Types.register_of_position? found] at registered
  cases registered
  exact ⟨⟨rfl, rfl, rfl⟩, found⟩

/-- A global is appended with its initializer if it is new. -/
theorem advances_registerGlobal {id : GlobalId} {index : Nat}
    (run : Yields (registerGlobal program id) s index t) :
    Advances program s t ∧ t.globals.position? id = some index := by
  obtain ⟨globals, constants, registered, rfl⟩ := yields_registerGlobal_iff.mp run
  have larger := s.globals.grows_insert id
  rw [Program.registerGlobal] at registered
  split at registered
  · next known =>
    cases registered
    exact ⟨.refl _, known⟩
  · simp only [bind_eq_ok_iff] at registered
    obtain ⟨global, -, registered⟩ := registered
    have position := s.globals.position?_insert id
    split at registered
    · simp only [bind_eq_ok_iff, pure_eq_ok_iff] at registered
      obtain ⟨constant, -, registered⟩ := registered
      cases registered
      exact ⟨⟨⟨.refl _, Table.grows_insert _ _, larger⟩, fun sound =>
        ⟨sound.types, sound.constants.insert _, sound.globals.insert id, sound.closed⟩⟩, position⟩
    · cases registered
      exact ⟨⟨⟨.refl _, .refl _, larger⟩, fun sound =>
        ⟨sound.types, sound.constants, sound.globals.insert id, sound.closed⟩⟩, position⟩

/-! ## Rows of steps

A row of steps answers a row of records.  What one step guarantees of its own record has to survive
the steps behind it, so the guarantee is stated in the tables at the end. -/

/-- What a relation says of the second of two things alone, it says of each one in a row. -/
theorem forall_of_forall₂ {α β : Type} {R : α → β → Prop} {P : β → Prop}
    {as : List α} {bs : List β} (h : List.Forall₂ R as bs) (imp : ∀ {a b}, R a b → P b) :
    ∀ b ∈ bs, P b := by
  induction h with
  | nil => simp
  | cons first _ ih =>
    intro b mem
    rcases List.mem_cons.mp mem with rfl | mem
    · exact imp first
    · exact ih b mem

/-- What every step of a row guarantees of its record, and no later step takes away, the row
guarantees of all its records.  A step is only asked for it in states that the steps before it may
lead to. -/
theorem mapM_spec {α β : Type} {step : α → Encoding β} (Along : EncodeState → EncodeState → Prop)
    (R : EncodeState → α → β → Prop) (refl : ∀ a, Along a a)
    (trans : ∀ {a b c}, Along a b → Along b c → Along a c)
    (mono : ∀ {a b : EncodeState} {x : α} {y : β}, Along a b → R a x y → R b x y)
    {list : List α} {values : List β}
    (each : ∀ {x : α} {y : β} {a b : EncodeState}, x ∈ list → Along s a → Yields (step x) a y b →
      Along a b ∧ R b x y)
    (run : Yields (list.mapM step) s values t) :
    Along s t ∧ List.Forall₂ (R t) list values := by
  induction list generalizing s values with
  | nil =>
    obtain ⟨rfl, rfl⟩ := yields_mapM_nil_iff.mp run
    exact ⟨refl t, .nil⟩
  | cons x list ih =>
    obtain ⟨y, a, more, one, others, rfl⟩ := yields_mapM_cons_iff.mp run
    obtain ⟨before, here⟩ := each List.mem_cons_self (refl s) one
    obtain ⟨after, rest⟩ := ih (fun mem along => each (List.mem_cons_of_mem _ mem)
      (trans before along)) others
    exact ⟨trans before after, .cons (mono after here) rest⟩

/-- Rows of steps that advance, each with a description `D` that larger tables keep and a property
`F` of the record alone. -/
theorem mapM_advances {α β : Type} {step : α → Encoding β} {D : EncodeState → α → β → Prop}
    {F : β → Prop}
    (mono : ∀ {a b : EncodeState} {x : α} {y : β}, a.Grows b → D a x y → D b x y)
    {list : List α} {values : List β}
    (each : ∀ {x : α} {y : β} {a b : EncodeState}, Yields (step x) a y b →
      Advances program a b ∧ D b x y ∧ F y)
    (run : Yields (list.mapM step) s values t) :
    Advances program s t ∧ List.Forall₂ (D t) list values ∧ ∀ y ∈ values, F y := by
  obtain ⟨advances, all⟩ := mapM_spec (Advances program)
    (fun tables x y => D tables x y ∧ F y) .refl .trans
    (fun advances h => ⟨mono advances.grows h.1, h.2⟩) (fun _ _ => each) run
  exact ⟨advances, all.imp fun _ _ => And.left, forall_of_forall₂ all And.right⟩

end Encoding

end IrStream
