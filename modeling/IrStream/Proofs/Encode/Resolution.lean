import IrStream.Proofs.Encode.Basic
import IrStream.Proofs.Program.Consistent

/-!
# Every position resolves

Positions are written while the tables still grow.  `Stream.Resolves` says what they are once all is
written: each names, in the tables that encoding leaves, exactly the entity that the program has in
its place (`Table.IsAt`), and there are as many records in a section as its table has entries.  So
no position is beyond the end of its section (`Stream.InBounds`).

A table gives no entity two positions because registering looks before it appends
(`EncodeState.Sound`); what positions of blocks and arguments mean comes from the program
(`Program.Consistent`).

`Table.IsAt table index key` is stronger than that there is `key` at `index`: it says in addition
that `key` is nowhere else.  With the weaker form a stream could name one constant by two positions,
and a reader that compares positions would take it for two constants.

The statement follows the stream: a clause for functions with their blocks and instructions, one for
each section, and in each of them one for every field that is a position.  It is derived from
`Stream.Describes`, in which positions are what the encoder looked up, and the two facts about
tables and programs above.  Being in bounds is then a corollary, and it is stated of the stream
alone; a reader that has nothing but the stream can check it.

## Statements

* `ResolvesOperand.of_denotes`: one case for each sort of operand, and in each of them one fact
  about a table or about the program.
* `Stream.Describes.resolves`: the whole stream.
* `Resolves.inBounds`: **what resolves is in bounds.**
* `resolves_of_encode`: **every position in a stream resolves**, and the sections are as long as the
  tables.
-/

set_option autoImplicit false

namespace IrStream

open Encoding EncodeState

/-- The position is the one that a table has a key at. -/
def Table.IsAt {α : Type} (table : Table α) (index : Nat) (key : α) : Prop :=
  table.get? index = some key ∧ ∀ other, table.get? other = some key → other = index

theorem Table.Distinct.isAt {α : Type} [DecidableEq α] {table : Table α}
    (distinct : table.Distinct) {index : Nat} {key : α}
    (h : table.position? key = some index) : table.IsAt index key := by
  refine ⟨get?_of_position? h, fun other found => ?_⟩
  exact Option.some.inj ((distinct.position? found).symm.trans h)

theorem Table.IsAt.lt_size {α : Type} {table : Table α} {index : Nat} {key : α}
    (h : table.IsAt index key) : index < table.size :=
  (Array.getElem?_eq_some_iff.mp h.1).1

/-! ## What positions name

A position of an operand names a constant, a global, a function, an argument or a block, each in its
own way; the pair of numbers of a result names a location. -/

namespace Program

variable (program : Program) (tables : EncodeState)

/-- What an operand record names is what the program has in its place. -/
def ResolvesOperand (func : FuncId) (function : Function) : OperandSource → OperandRecord → Prop
  | .operand (.const id), .constant index =>
    ∃ constant, program.constant id = .ok constant ∧ tables.constants.IsAt index constant
  | .operand (.const id), .global index =>
    ∃ global, program.constant id = .ok (.global global) ∧ tables.globals.IsAt index global
  | .operand (.const id), .function index =>
    program.constant id = .ok (.function ⟨index⟩) ∧ index < program.functions.size
  | .operand (.arg id), .arg number =>
    ∃ arg params ret vararg, program.arg id = .ok arg ∧ arg.func = func ∧ arg.number = number
      ∧ program.types.shape function.type = .ok (.func params ret vararg)
      ∧ number < params.length ∧ function.args[number]? = some id
  | .operand (.inst id), .localVariable block inst =>
    program.instAt? function ⟨block, inst⟩ = some id
  | .operand (.block id), .block index => function.blockTable.IsAt index id
  | .operand (.text text), .unimplemented shown => shown = text
  | .type id, .type index => tables.types.IsAt index id
  | .constant constant, .constant index => tables.constants.IsAt index constant
  | .predicate predicate, .predicate written => written = predicate
  | .text text, .unimplemented shown => shown = text
  | _, _ => False

/-- The record of an instruction resolves. -/
def ResolvesInst (func : FuncId) (function : Function) (id : InstId) (record : InstRecord) : Prop :=
  ∃ inst recipe, program.inst id = .ok inst ∧ program.recipe? id inst = some recipe
    ∧ tables.types.IsAt record.type inst.type
    ∧ List.Forall₂ (program.ResolvesOperand tables func function) recipe.sources record.operands

/-- The record of a function resolves, with all its instructions. -/
def ResolvesFunction (func : FuncId) (record : FunctionRecord) : Prop :=
  ∃ function, program.function func = .ok function
    ∧ record.name = function.name
    ∧ tables.types.IsAt record.type function.type
    ∧ record.blocks.length = function.blocks.length
    ∧ (∀ here, (record.instAt? here).isSome ↔ (program.instAt? function here).isSome)
    ∧ ∀ here id inst, program.instAt? function here = some id → record.instAt? here = some inst →
      program.ResolvesInst tables func function id inst

/-- The parts of a type record resolve. -/
def ResolvesType (id : TypeId) : TypeRecord → Prop
  | .function params ret _ => ∃ paramIds retId vararg,
    program.types.shape id = .ok (.func paramIds retId vararg)
      ∧ List.Forall₂ (fun part index => tables.types.IsAt index part) paramIds params
      ∧ tables.types.IsAt ret retId
  | .struct fields _ => ∃ shape, program.types.shape id = .ok (.struct shape)
      ∧ List.Forall₂ (fun part index => tables.types.IsAt index part) shape.fields fields
  | _ => True

end Program

/-- Every position in the stream names what the program has in its place, in the tables `tables`,
which name nothing twice and are as long as their sections. -/
structure Stream.Resolves (program : Program) (tables : EncodeState) (stream : Stream) : Prop where
  /-- There is a record for each function of the program. -/
  functionCount : stream.functions.length = program.functions.size
  /-- There is a record for each entry of the table of constants. -/
  constantCount : stream.constants.length = tables.constants.size
  /-- There is a record for each entry of the table of globals. -/
  globalCount : stream.globals.length = tables.globals.size
  /-- There is a record for each entry of the table of types. -/
  typeCount : stream.types.length = tables.types.size
  /-- All positions in records of functions lead to what they are written for. -/
  functions : List.Forall₂ (program.ResolvesFunction tables) program.functionIds stream.functions
  /-- The type of a constant record is that of the constant at its position. -/
  constants : List.Forall₂ (fun constant record => tables.types.IsAt record.type constant.type)
    tables.constants.toList stream.constants
  /-- A global record has the name of the global at its position. -/
  globals : List.Forall₂ (fun id record => ∃ global, program.global id = .ok global
    ∧ record.name = global.name) tables.globals.toList stream.globals
  /-- The parts of a type record are those of the type at its position. -/
  types : List.Forall₂ (program.ResolvesType tables) tables.types.toList stream.types

/-! ## No position is out of bounds

For the fields of records of each sort.  Blocks and instructions are counted per function and per
block. -/

/-- A position is below the count of its section.  The number of an argument points into no
section. -/
def OperandRecord.InBounds (stream : Stream) (owner : FunctionRecord) : OperandRecord → Prop
  | constant index => index < stream.constants.length
  | localVariable blockIndex instIndex => (owner.instAt? ⟨blockIndex, instIndex⟩).isSome
  | type index => index < stream.types.length
  | function index => index < stream.functions.length
  | block index => index < owner.blocks.length
  | global index => index < stream.globals.length
  | arg _ => True
  | predicate _ => True
  | unimplemented _ => True

def TypeRecord.InBounds (stream : Stream) : TypeRecord → Prop
  | function params ret _ =>
    (∀ index ∈ params, index < stream.types.length) ∧ ret < stream.types.length
  | struct fields _ => ∀ index ∈ fields, index < stream.types.length
  | _ => True

/-- Every position in the stream is below the count of its section. -/
structure Stream.InBounds (stream : Stream) : Prop where
  /-- Types of functions are in the section of types. -/
  functions : ∀ function ∈ stream.functions, function.type < stream.types.length
  /-- Types of instructions are there as well, and operands are in the sections they point into. -/
  insts : ∀ function ∈ stream.functions, ∀ here inst, function.instAt? here = some inst →
    inst.type < stream.types.length
      ∧ ∀ operand ∈ inst.operands, operand.InBounds stream function
  /-- Types of constants are in the section of types. -/
  constants : ∀ constant ∈ stream.constants, constant.type < stream.types.length
  /-- Types are made of types of the same section. -/
  types : ∀ type ∈ stream.types, type.InBounds stream

/-! ## Descriptions resolve -/

namespace Program

variable {program : Program} {tables : EncodeState} {func : FuncId} {function : Function}
  {word : WordSize}

/-- The table of functions is the list of all functions, so a position is a handle. -/
theorem eq_of_functionTable {id : FuncId} {index : Nat}
    (h : program.functionTable.position? id = some index) :
    id = ⟨index⟩ ∧ index < program.functions.size := by
  have found := Table.get?_of_position? h
  simp only [Table.get?, functionTable, functionIds, List.getElem?_toArray, List.getElem?_map,
    Option.map_eq_some_iff] at found
  obtain ⟨position, listed, rfl⟩ := found
  obtain ⟨bound, rfl⟩ := List.getElem?_eq_some_iff.mp listed
  simpa using bound

/-- A record that denotes an operand says where it is, and in the tables of a sound state that is
where the key of the operand stands. -/
theorem ResolvesOperand.of_denotes (sound : Sound program tables) (consistent : program.Consistent)
    (found : program.function func = .ok function) {here : Location} {source : OperandSource}
    {record : OperandRecord} (h : program.Denotes tables func function here source record) :
    program.ResolvesOperand tables func function source record := by
  cases h with
  | constant found plain position => exact ⟨_, found, sound.constants.isAt position⟩
  | global found position => exact ⟨_, found, sound.globals.isAt position⟩
  | function found position =>
    obtain ⟨rfl, bound⟩ := eq_of_functionTable position
    exact ⟨found, bound⟩
  | arg there owner =>
    obtain ⟨_, params, ret, vararg, again, shape, param, listed⟩ := consistent.arg there
    rw [owner] at again
    cases found.symm.trans again
    exact ⟨_, params, ret, vararg, there, owner, rfl, shape,
      (List.getElem?_eq_some_iff.mp param).1, listed⟩
  | inst located => exact located
  | block position =>
    have distinct : function.blockTable.Distinct := by
      simpa [Table.Distinct, Table.toList, Function.blockTable] using consistent.nodup_blocks found
    exact distinct.isAt position
  | text => rfl
  | type position => exact sound.types.isAt position
  | entry position => exact sound.constants.isAt position
  | predicate => rfl
  | snapshot => rfl

/-- All records of a function lead to what they are written for, because each of them describes its
instruction. -/
theorem ResolvesFunction.of_describes (sound : Sound program tables)
    (consistent : program.Consistent) {record : FunctionRecord}
    (h : program.DescribesFunction tables func record) :
    program.ResolvesFunction tables func record := by
  obtain ⟨function, found, name, type, blocks⟩ := h
  have h : program.DescribesFunction tables func record := ⟨function, found, name, type, blocks⟩
  refine ⟨function, found, name, sound.types.isAt type, ?_, fun here => ⟨?_, ?_⟩, ?_⟩
  · rw [← blocks.length_eq, List.length_zipIdx, body, List.length_map]
  · intro some
    obtain ⟨inst, located⟩ := Option.isSome_iff_exists.mp some
    obtain ⟨id, there, -⟩ := h.exists_id found located
    exact Option.isSome_iff_exists.mpr ⟨id, there⟩
  · intro some
    obtain ⟨id, located⟩ := Option.isSome_iff_exists.mp some
    obtain ⟨inst, there, -⟩ := h.exists_record found located
    exact Option.isSome_iff_exists.mpr ⟨inst, there⟩
  · intro here id record located there
    obtain ⟨_, again, inst, recipe, known, made, follows⟩ := h.exists_record found located
    cases there.symm.trans again
    exact ⟨inst, recipe, known, made, sound.types.isAt follows.type,
      follows.operands.imp fun _ _ => .of_denotes sound consistent found⟩

theorem ResolvesType.of_describes (sound : Sound program tables) {id : TypeId} {record : TypeRecord}
    (h : program.DescribesType tables word id record) : program.ResolvesType tables id record := by
  have parts {ids positions} (h : DescribesTypes tables ids positions) :
      List.Forall₂ (fun part index => tables.types.IsAt index part) ids positions :=
    h.imp fun _ _ => sound.types.isAt
  cases h with
  | func found parameters result =>
    exact ⟨_, _, _, found, parts parameters, sound.types.isAt result⟩
  | struct found _ fields => exact ⟨_, found, parts fields⟩
  | _ => trivial

end Program

/-- Section by section, from the description of a stream. -/
theorem Stream.Describes.resolves {program : Program} {word : WordSize} {tables : EncodeState}
    {stream : Stream} (h : stream.Describes program word tables) (sound : Sound program tables)
    (consistent : program.Consistent) : stream.Resolves program tables where
  functionCount := by
    rw [← h.functions.length_eq, Program.functionIds, List.length_map, List.length_range]
  constantCount := by rw [← h.constants.length_eq, Table.length_toList]
  globalCount := by rw [← h.globals.length_eq, Table.length_toList]
  typeCount := by rw [← h.types.length_eq, Table.length_toList]
  functions := h.functions.imp fun _ _ => .of_describes sound consistent
  constants := h.constants.imp fun _ _ described => sound.types.isAt described.1
  globals := h.globals.imp fun _ _ ⟨global, found, written⟩ => ⟨global, found, by rw [written]⟩
  types := h.types.imp fun _ _ => .of_describes sound

/-! ## What resolves is in bounds

A position with something at it is below the size of its table, which is the count of its section.
-/

namespace Stream

variable {program : Program} {tables : EncodeState} {stream : Stream}

/-- A position that leads somewhere is in bounds.  For an instruction the location has to be one of
the record, which has the same blocks and instructions as the function. -/
theorem Resolves.operand_inBounds (h : stream.Resolves program tables) {func : FuncId}
    {function : Function} {owner : FunctionRecord}
    (blocks : owner.blocks.length = function.blocks.length)
    (located : ∀ here, (owner.instAt? here).isSome ↔ (program.instAt? function here).isSome)
    {source : OperandSource} {record : OperandRecord}
    (resolves : program.ResolvesOperand tables func function source record) :
    record.InBounds stream owner := by
  unfold Program.ResolvesOperand at resolves
  split at resolves
  · obtain ⟨constant, -, isAt⟩ := resolves
    exact isAt.lt_size.trans_eq h.constantCount.symm
  · obtain ⟨global, -, isAt⟩ := resolves
    exact isAt.lt_size.trans_eq h.globalCount.symm
  · exact resolves.2.trans_eq h.functionCount.symm
  · trivial
  · exact (located _).mpr (Option.isSome_iff_exists.mpr ⟨_, resolves⟩)
  · have bound := resolves.lt_size
    simpa [OperandRecord.InBounds, blocks, Table.size, Function.blockTable] using bound
  · trivial
  · exact resolves.lt_size.trans_eq h.typeCount.symm
  · exact resolves.lt_size.trans_eq h.constantCount.symm
  · trivial
  · trivial
  · exact resolves.elim

/-- The positions in the record of a function are in bounds, those in its instructions and operands
included. -/
theorem Resolves.function_inBounds (h : stream.Resolves program tables) {func : FuncId}
    {record : FunctionRecord} (resolves : program.ResolvesFunction tables func record) :
    record.type < stream.types.length ∧ ∀ here inst, record.instAt? here = some inst →
      inst.type < stream.types.length
        ∧ ∀ operand ∈ inst.operands, operand.InBounds stream record := by
  obtain ⟨function, -, -, type, blocks, located, insts⟩ := resolves
  refine ⟨type.lt_size.trans_eq h.typeCount.symm, fun here inst there => ?_⟩
  obtain ⟨id, listed⟩ := Option.isSome_iff_exists.mp
    ((located here).mp (Option.isSome_iff_exists.mpr ⟨inst, there⟩))
  obtain ⟨_, recipe, -, -, instType, operands⟩ := insts here id inst listed there
  exact ⟨instType.lt_size.trans_eq h.typeCount.symm,
    forall_of_forall₂ operands (h.operand_inBounds blocks located)⟩

/-- The parts of a type are types of the section. -/
theorem Resolves.type_inBounds (h : stream.Resolves program tables) {id : TypeId}
    {record : TypeRecord} (resolves : program.ResolvesType tables id record) :
    record.InBounds stream := by
  have below {index : Nat} {part : TypeId} (isAt : tables.types.IsAt index part) :
      index < stream.types.length :=
    isAt.lt_size.trans_eq h.typeCount.symm
  cases record with
  | function params ret vararg =>
    obtain ⟨_, _, _, -, parameters, result⟩ := resolves
    exact ⟨forall_of_forall₂ parameters below, below result⟩
  | struct fields offsets =>
    obtain ⟨_, -, parts⟩ := resolves
    exact forall_of_forall₂ parts below
  | _ => trivial

/-- **What resolves is in bounds.** -/
theorem Resolves.inBounds (h : stream.Resolves program tables) : stream.InBounds where
  functions := forall_of_forall₂ h.functions fun resolves => (h.function_inBounds resolves).1
  insts := forall_of_forall₂ h.functions fun resolves => (h.function_inBounds resolves).2
  constants := forall_of_forall₂ h.constants fun isAt => isAt.lt_size.trans_eq h.typeCount.symm
  types := forall_of_forall₂ h.types h.type_inBounds

end Stream

/-- **Every position in a stream resolves** to what the program has in its place: it is the position
of that entity in the tables, whose sections hold the record of each entry at its position.  None is
out of bounds. -/
theorem resolves_of_encode {program : Program} {word : WordSize} {module : EncodedModule}
    (built : program.Built) (h : program.encode word = .ok module) :
    ∃ stream, Stream.read? word module.bytes = some stream
      ∧ stream.Describes program word (program.finalTables word)
      ∧ stream.Resolves program (program.finalTables word) ∧ stream.InBounds := by
  obtain ⟨stream, read, describes, sound⟩ := describes_of_encode h
  have resolves := describes.resolves sound built.consistent.1
  exact ⟨stream, read, describes, resolves, resolves.inBounds⟩

/-- In this stream are operands of each sort: a callee, a global, blocks, an offset and an escaped
text. -/
theorem resolves_of_encode_counter :
    ∃ module, Program.counter.Built ∧ Program.counter.encode .eight = .ok module
      ∧ Stream.read? .eight module.bytes = some .counter
      ∧ Stream.counter.Resolves .counter (Program.counter.finalTables .eight)
      ∧ Stream.counter.InBounds := by
  obtain ⟨module, outcome, spells, -⟩ := encode_counter
  obtain ⟨stream, read, -, resolves, inBounds⟩ := resolves_of_encode built_counter outcome
  cases spells.symm.trans read
  exact ⟨module, built_counter, outcome, spells, resolves, inBounds⟩

end IrStream
