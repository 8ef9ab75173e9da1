import IrStream.Proofs.Encode.Growth
import IrStream.Proofs.Encode.WellFormed
import IrStream.Proofs.Program.Text

/-!
# Encoding fails for a reason

`Encoding.Settles` is the judgment that a step of encoding a built program either succeeds, or fails
with an error that there is a cause for (`Program.Explains`), and then the program is not
well-formed.  A handle outside its arena is never the cause.  The tables that a step begins and ends
with hold nothing but what the program uses (`EncodeState.Within`), so no table outgrows its
section.

There is one rule for each way of making a step out of others, and one for each primitive step; the
steps of encoding are settled by going through them (`settles_encodeStream`).

A judgment for steps that may fail would usually say what is true when they do not.  This one says
what is true *in every case*, and that has a price and a use.  The price is that the rule for `do`
needs the first step to settle before anything can be said about the second.  The use is that one
judgment gives both halves of the main statement: a well-formed program has no cause for an error,
so it is encoded, and a program that is not encoded is told what is wrong with it.

`Explains` lists the errors with their causes, in the words of `Program.WellFormed` and not of the
encoder.  Three errors have no cause there: a handle outside its arena, a function without a
position and a block that emits another number of records than it promised.  None of them occurs.

## Statements

* `exists_register`: registering never fails where everything is in range, and registers nothing
  that was not asked for.
* `Within.insertConstant`, `Within.insertGlobal`: the tables keep to what the program uses.
* `Settles.bind`, `settles_mapM`: blocks and rows.
* `settles_sized`, `settles_unterminated`: the checks of fields, each with the clause of
  `WellFormed` that it needs.
* `settles_registerConstant`, `settles_registerType`, `settles_registerGlobal`: the tables.
-/

set_option autoImplicit false

namespace IrStream

/-! ## What a program uses is in range -/

namespace Program

variable {program : Program}

theorem UsesConstant.inRange (built : program.Built) {constant : Constant}
    (used : program.UsesConstant constant) : constant.InRange program := by
  cases used with
  | operand _ _ found _ => exact built.complete.constant found
  | offset => exact Nat.lt_of_le_of_lt (by decide) built.consistent.2
  | initializer _ _ _ value => exact built.complete.constant value

/-- By cases on how the type is used; each of them starts from an entry of the program and goes to a
type in it. -/
theorem UsesType.has (built : program.Built) {id : TypeId} (used : program.UsesType id) :
    program.types.Has id := by
  induction used with
  | signature found => exact built.complete.signature found
  | result emits => exact built.complete.result emits.known
  | allocated emits kind =>
    have inRange := built.complete.kind emits.known
    rw [kind] at inRange
    exact inRange
  | constant used => exact (used.inRange built).has built.consistent.2
  | part _ found listed _ => exact built.complete.types found _ listed

end Program

/-! ## Registering in range

Registering fails on a handle outside the arena and on nothing else, and it appends what can be
reached.  Both are shown for any part of the arena that is closed under parts. -/

section

variable {ε α β : Type}

theorem exists_foldlM_eq_ok {f : β → α → Except ε β} {I : β → Prop} {list : List α}
    (each : ∀ a ∈ list, ∀ b, I b → ∃ after, f b a = .ok after ∧ I after) {b : β} (h : I b) :
    ∃ after, list.foldlM f b = .ok after ∧ I after := by
  induction list generalizing b with
  | nil => exact ⟨b, List.foldlM_nil, h⟩
  | cons a rest ih =>
    obtain ⟨middle, first, holds⟩ := each a List.mem_cons_self b h
    obtain ⟨after, others, done⟩ := ih (fun x mem => each x (List.mem_cons_of_mem a mem)) holds
    exact ⟨after, by rw [List.foldlM_cons, first]; exact others, done⟩

end

namespace Types

variable {types : Types} {P : TypeId → Prop}

/-- Registering never fails inside a part of the arena that has all it contains, and registers
nothing else. -/
theorem exists_registerWithin (has : ∀ {id}, P id → types.Has id)
    (parts : ∀ {id shape}, P id → types.shape id = .ok shape → ∀ child ∈ shape.children, P child)
    (depth : Nat) {table : TypeTable} {id : TypeId} (all : ∀ other ∈ table, P other)
    (here : P id) : ∃ after, types.registerWithin depth table id = .ok after
      ∧ ∀ other ∈ after, P other := by
  induction depth generalizing table id with
  | zero => exact ⟨table, rfl, all⟩
  | succ depth ih =>
    cases known : table.position? id with
    | some index => exact ⟨table, by rw [registerWithin, known], all⟩
    | none =>
      obtain ⟨shape, found⟩ := (has here).exists_shape
      have larger : ∀ other ∈ (table.insert id).2, P other := by
        intro other mem
        rcases Table.mem_insert.mp mem with rfl | mem
        exacts [here, all other mem]
      obtain ⟨after, run, holds⟩ := exists_foldlM_eq_ok
        (fun child listed _ all => ih all (parts here found child listed)) larger
      exact ⟨after, (registerWithin_succ_of_new known).mpr
        ⟨shape.children, children_eq_ok_iff.mpr ⟨shape, found, rfl⟩, run⟩, holds⟩

theorem exists_register (has : ∀ {id}, P id → types.Has id)
    (parts : ∀ {id shape}, P id → types.shape id = .ok shape → ∀ child ∈ shape.children, P child)
    {table : TypeTable} {id : TypeId} (all : ∀ other ∈ table, P other) (here : P id) :
    ∃ index after, types.register table id = .ok (index, after) ∧ ∀ other ∈ after, P other := by
  rw [register]
  split
  · next index known => exact ⟨index, table, rfl, all⟩
  · obtain ⟨after, run, holds⟩ := exists_registerWithin has parts (types.size + 1) all here
    exact ⟨table.size, after, by rw [run]; rfl, holds⟩

end Types

/-- A position in a table is below what the table may hold at most. -/
theorem Table.le_of_position? {α : Type} [DecidableEq α] {table : Table α} {P : α → Prop}
    {count index : Nat} (distinct : table.Distinct) (all : ∀ key ∈ table, P key)
    (atMost : AtMost count P) {key : α} (found : table.position? key = some index) :
    index ≤ count := by
  have bound : index < table.size := (Array.getElem?_eq_some_iff.mp (get?_of_position? found)).1
  have length := atMost table.toList distinct all
  rw [length_toList] at length
  omega

/-! ## Tables of what is used

The invariant that every step keeps.  It bounds the sizes of the tables, since a table without
duplicates is no longer than the list of what it may hold. -/

/-- The tables hold each entity that they hold once, hold only what the program uses, and with a
global its initializer. -/
structure EncodeState.Within (program : Program) (state : EncodeState) : Prop where
  /-- Every type in its table is used. -/
  types : ∀ id ∈ state.types, program.UsesType id
  /-- Every constant in its table is used. -/
  constants : ∀ constant ∈ state.constants, program.UsesConstant constant
  /-- Every global in its table is used. -/
  globals : ∀ id ∈ state.globals, program.UsesGlobal id
  /-- No type is in its table twice. -/
  distinctTypes : state.types.Distinct
  /-- No constant is in its table twice. -/
  distinctConstants : state.constants.Distinct
  /-- No global is in its table twice. -/
  distinctGlobals : state.globals.Distinct
  /-- A global comes with the constant that it is initialized with. -/
  initializers : ∀ id ∈ state.globals, ∀ {global init constant}, program.global id = .ok global →
    global.init = some init → program.constant init = .ok constant → constant ∈ state.constants

namespace EncodeState

variable {program : Program} {s t : EncodeState}

theorem Within.initial (program : Program) : Within program .initial where
  types _ mem := absurd mem Table.not_mem_empty
  constants _ mem := absurd mem Table.not_mem_empty
  globals _ mem := absurd mem Table.not_mem_empty
  distinctTypes := List.nodup_nil
  distinctConstants := List.nodup_nil
  distinctGlobals := List.nodup_nil
  initializers _ mem := absurd mem Table.not_mem_empty

/-- Only tables matter. -/
theorem Within.of_sameTables (within : Within program s) (same : s.SameTables t) :
    Within program t := by
  obtain ⟨types, constants, globals⟩ := same
  constructor
  · exact types ▸ within.types
  · exact constants ▸ within.constants
  · exact globals ▸ within.globals
  · exact types ▸ within.distinctTypes
  · exact constants ▸ within.distinctConstants
  · exact globals ▸ within.distinctGlobals
  · rw [globals, constants]
    exact within.initializers

/-- A constant that the program uses may join the table. -/
theorem Within.insertConstant (within : Within program s) {constant : Constant}
    (used : program.UsesConstant constant) :
    Within program { s with constants := (s.constants.insert constant).2 } where
  types := within.types
  constants other mem := by
    rcases Table.mem_insert.mp mem with rfl | mem
    exacts [used, within.constants other mem]
  globals := within.globals
  distinctTypes := within.distinctTypes
  distinctConstants := within.distinctConstants.insert constant
  distinctGlobals := within.distinctGlobals
  initializers id mem _ _ _ found initialized value :=
    Table.mem_insert.mpr (.inr (within.initializers id mem found initialized value))

/-- A global may join its initializer. -/
theorem Within.insertGlobal (within : Within program s) {id : GlobalId}
    (used : program.UsesGlobal id)
    (ready : ∀ {global init constant}, program.global id = .ok global → global.init = some init →
      program.constant init = .ok constant → constant ∈ s.constants) :
    Within program { s with globals := (s.globals.insert id).2 } where
  types := within.types
  constants := within.constants
  globals other mem := by
    rcases Table.mem_insert.mp mem with rfl | mem
    exacts [used, within.globals other mem]
  distinctTypes := within.distinctTypes
  distinctConstants := within.distinctConstants
  distinctGlobals := within.distinctGlobals.insert id
  initializers other mem _ _ _ found initialized value := by
    rcases Table.mem_insert.mp mem with rfl | mem
    exacts [ready found initialized value, within.initializers other mem found initialized value]

end EncodeState

/-! ## Causes of errors

An error is explained by something that can be said of the program without running the encoder. -/

/-- Whether an operand is a value of a function, which has to have a location. -/
def Operand.isLocal : Operand → Bool
  | .arg _ => true
  | .inst _ => true
  | _ => false

namespace Program

variable (program : Program)

/-- An operand is written where it is not available: in the function called `name`, where `text`
shows it. -/
def Misplaces (operand : Operand) (name text : String) : Prop :=
  ∃ func function here id inst, program.Emits func function here id inst ∧ function.name = name
    ∧ operand ∈ inst.writtenOperands ∧ program.operandText operand = .ok text
    ∧ ¬ program.Available func function here operand

/-- There is a cause for an error about operands.  A handle outside its arena has none, nor has a
block that promises another number of records than it emits, nor a function without a position. -/
def Explains : EncodeError → Prop
  | .undefinedValue name text => ∃ operand, operand.isLocal = true
      ∧ program.Misplaces operand name text
  | .unknownBlock name text => ∃ block, program.Misplaces (.block block) name text
  | .instructionCountMismatch .. => False
  | .unknownFunction _ => False
  | .dangling _ => False
  | _ => True

end Program

/-! ## The judgment

The rules.  Those for steps that answer something say what the answer is, so that the next step can
use it. -/

namespace Encoding

open EncodeState

/-- The step succeeds with an answer that has the property `Q`, or it fails with an error that the
program has a cause for, which is then not well-formed. -/
def Settles (program : Program) (word : WordSize) {α : Type} (step : Encoding α) (Q : α → Prop) :
    Prop :=
  ∀ s : EncodeState, s.Within program →
    (∃ a t, Yields step s a t ∧ t.Within program ∧ Q a)
      ∨ ∃ error t, step.run.run s = (.error error, t) ∧ program.Explains error
        ∧ ¬ program.WellFormed word

variable {program : Program} {word : WordSize} {α β : Type}

theorem Settles.pure {Q : α → Prop} {a : α} (h : Q a) :
    Settles program word (Pure.pure a) Q := fun s within =>
  .inl ⟨a, s, yields_pure_iff.mpr ⟨rfl, rfl⟩, within, h⟩

theorem Settles.throw {Q : α → Prop} {error : EncodeError}
    (cause : program.Explains error) (ill : ¬ program.WellFormed word) :
    Settles program word (MonadExcept.throw error : Encoding α) Q := fun s _ =>
  .inr ⟨error, s, rfl, cause, ill⟩

/-- The second step is only asked about answers that the first one can give. -/
theorem Settles.bind {step : Encoding α} {next : α → Encoding β} {P : α → Prop} {Q : β → Prop}
    (first : Settles program word step P)
    (second : ∀ a, P a → Settles program word (next a) Q) :
    Settles program word (step >>= next) Q := by
  intro s within
  rcases first s within with ⟨a, t, run, middle, h⟩ | ⟨error, t, run, cause, ill⟩
  · rcases second a h t middle with ⟨b, u, more, after, holds⟩ | ⟨error, u, more, cause, ill⟩
    · exact .inl ⟨b, u, yields_bind_iff.mpr ⟨a, t, run, more⟩, after, holds⟩
    · refine .inr ⟨error, u, ?_, cause, ill⟩
      have unfolded : (step >>= next).run.run s
          = ExceptT.bindCont next (step.run.run s).1 (step.run.run s).2 := rfl
      rw [unfolded, run]
      exact more
  · refine .inr ⟨error, t, ?_, cause, ill⟩
    have unfolded : (step >>= next).run.run s
        = ExceptT.bindCont next (step.run.run s).1 (step.run.run s).2 := rfl
    rw [unfolded, run]
    rfl

theorem settles_dangling {answer : Except Dangling α} (h : ∃ a, answer = .ok a) :
    Settles program word (liftM answer) fun a => answer = .ok a := by
  intro s within
  obtain ⟨a, found⟩ := h
  exact .inl ⟨a, s, yields_dangling_iff.mpr ⟨found, rfl⟩, within, found⟩

theorem settles_get : Settles program word get fun state => state.Within program := fun s within =>
  .inl ⟨s, s, yields_get_iff.mpr ⟨rfl, rfl⟩, within, within⟩

theorem settles_log (event : LogEvent) : Settles program word (log event) fun _ => True :=
  fun _ within => .inl ⟨(), _, yields_log_iff.mpr rfl,
    within.of_sameTables ⟨rfl, rfl, rfl⟩, trivial⟩

theorem settles_count (step : EncodeStats → EncodeStats) :
    Settles program word (count step) fun _ => True :=
  fun _ within => .inl ⟨(), _, yields_count_iff.mpr rfl,
    within.of_sameTables ⟨rfl, rfl, rfl⟩, trivial⟩

theorem settles_mapM {step : α → Encoding β} {list : List α}
    (each : ∀ a ∈ list, Settles program word (step a) fun _ => True) :
    Settles program word (list.mapM step) fun _ => True := by
  induction list with
  | nil => exact List.mapM_nil (f := step) ▸ .pure trivial
  | cons a rest ih =>
    rw [List.mapM_cons]
    refine (each a List.mem_cons_self).bind fun b _ => ?_
    have rest := ih fun other mem => each other (List.mem_cons_of_mem a mem)
    exact rest.bind fun _ _ => .pure trivial

/-! ### Fields -/

theorem settles_sized {value : Nat} (fits : program.WellFormed word → value ≤ word.maxValue) :
    Settles program word (sized word value) fun _ => True := by
  intro s within
  by_cases small : value ≤ word.maxValue
  · exact .inl ⟨value, s, yields_sized_iff.mpr ⟨rfl, small, rfl⟩, within, trivial⟩
  · refine .inr ⟨.field (.sizeOverflow value word.bytes), s, ?_, trivial,
      mt fits small⟩
    rw [sized, WordSize.fit, if_neg small]
    rfl

theorem settles_unterminated {text : String} (free : program.WellFormed word → NulFree text) :
    Settles program word (unterminated text) fun _ => True := by
  intro s within
  by_cases clean : NulFree text
  · exact .inl ⟨text, s, yields_unterminated_iff.mpr ⟨rfl, clean, rfl⟩, within, trivial⟩
  · refine .inr ⟨.field (.interiorNul text), s, ?_, trivial, mt free clean⟩
    rw [unterminated, fitText, if_pos (not_not.mp clean)]
    rfl

/-! ### Registering -/

theorem settles_registerConstant {constant : Constant} (used : program.UsesConstant constant) :
    Settles program word (registerConstant constant)
      fun index => program.WellFormed word → index ≤ word.maxValue := by
  intro s within
  have larger := within.insertConstant used
  refine .inl ⟨_, _, yields_registerConstant_iff.mpr ⟨rfl, rfl⟩, larger, fun formed => ?_⟩
  exact Table.le_of_position? larger.distinctConstants larger.constants formed.constantCount
    (Table.position?_insert _ _)

/-- Registering a type registers its parts, and all of these are used if the type is. -/
theorem settles_registerType (built : program.Built) {id : TypeId} (used : program.UsesType id) :
    Settles program word (registerType program id)
      fun index => program.WellFormed word → index ≤ word.maxValue := by
  intro s within
  obtain ⟨index, types, run, all⟩ := Types.exists_register (fun used => used.has built)
    (fun used found child listed => used.part found listed) within.types used
  obtain ⟨registers, position⟩ := Types.register_registers run
  have distinct := registers.distinct within.distinctTypes
  refine .inl ⟨index, { s with types }, yields_registerType_iff.mpr ⟨types, run, rfl⟩,
    { within with types := all, distinctTypes := distinct }, fun formed => ?_⟩
  exact Table.le_of_position? distinct all formed.typeCount position

/-- Registering a global cannot fail.  Its index fits if the program is well-formed, since the table
lists globals that are used, each of them once. -/
theorem settles_registerGlobal (built : program.Built) {id : GlobalId}
    (used : program.UsesGlobal id) :
    Settles program word (registerGlobal program id)
      fun index => program.WellFormed word → index ≤ word.maxValue := by
  intro s within
  have inArena : id.index < program.globals.size := by
    obtain ⟨_, _, found⟩ := used
    exact built.complete.constant found
  obtain ⟨global, found⟩ := Program.exists_global inArena
  have done {after : EncodeState} (index : Nat) (within : after.Within program)
      (run : Yields (registerGlobal program id) s index after) :
      ∃ index t, Yields (registerGlobal program id) s index t ∧ t.Within program
        ∧ (program.WellFormed word → index ≤ word.maxValue) :=
    ⟨index, after, run, within, fun formed =>
      Table.le_of_position? within.distinctGlobals within.globals formed.globalCount
        (advances_registerGlobal run).2⟩
  refine .inl ?_
  -- it is in the table, or it is new without an initializer, or it is new and brings a constant
  cases known : s.globals.position? id with
  | some index =>
    refine done index within (yields_registerGlobal_iff.mpr
      ⟨s.globals, s.constants, ?_, rfl⟩)
    rw [Program.registerGlobal, known]
  | none =>
    cases initialized : global.init with
    | none =>
      have larger := within.insertGlobal used fun again some _ => by
        cases found.symm.trans again
        cases initialized.symm.trans some
      refine done (s.globals.insert id).1 larger (yields_registerGlobal_iff.mpr
        ⟨(s.globals.insert id).2, s.constants, ?_, rfl⟩)
      simp only [Program.registerGlobal, known, found]
      simp [initialized]
    | some init =>
      obtain ⟨constant, value⟩ := Program.exists_constant (built.complete.init found initialized)
      have initial := within.insertConstant (.initializer used found initialized value)
      have larger := initial.insertGlobal used fun again some other => by
        cases found.symm.trans again
        cases initialized.symm.trans some
        cases value.symm.trans other
        exact Table.mem_insert.mpr (.inl rfl)
      refine done (s.globals.insert id).1 larger (yields_registerGlobal_iff.mpr
        ⟨(s.globals.insert id).2, (s.constants.insert constant).2, ?_, rfl⟩)
      simp only [Program.registerGlobal, known, found]
      simp [initialized, value]

end Encoding

end IrStream
