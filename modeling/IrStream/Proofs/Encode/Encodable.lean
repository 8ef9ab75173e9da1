import IrStream.Proofs.Encode.Basic
import IrStream.Proofs.Encode.Completeness

/-!
# Which programs can be encoded

A program that has a stream is well-formed: the stream describes the program, so whatever the
conditions of `Program.WellFormed` ask can be read off a record, and every entity that the program
uses is an entry of a section (`Stream.Encodes.mem_types` and its like).  With
`settles_encodeModule` this is the main statement, `encode_iff_wellFormed`.

The two directions are proved in different ways.

* **From well-formed to encoded.**  The encoder is followed step by step: each step succeeds or
  names a cause (`Encode/Completeness.lean`), and a well-formed program has none.
* **From encoded to well-formed.**  Nothing is followed.  An encoded program has a stream
  (`Stream.Encodes`), and a condition on the program that could fail would leave a trace in it: a
  number that would not fit its field, a record that could not be there.  The lemmas `of_text`,
  `of_struct`, `alloca_of_recipe?` and so on say what a record tells of the thing that it stands
  for.

The conditions that count things — no more types than the word size has numbers for — need in
addition that the sections hold *everything* the program uses.  That is so because the records refer
to them: a record names a position, and a position that resolves is a position of that entity.

The second part of the main statement is about errors.  An error has a cause that can be read off
the program, so the errors that no program has a cause for never occur: those for a handle outside
its arena, for a function without a position and for a block with a wrong number of records.
-/

set_option autoImplicit false

namespace IrStream

open Encoding EncodeState

/-- There are no more things with a property than a table holds, if it holds all of them. -/
theorem AtMost.of_table {α : Type} {table : Table α} {P : α → Prop} {count : Nat}
    (all : ∀ key, P key → key ∈ table) (size : table.size ≤ count) : AtMost count P := by
  intro list distinct holds
  have inside : list ⊆ table.toList := fun key mem => all key (holds key mem)
  have length := (List.subperm_of_subset distinct inside).length_le
  rw [Table.length_toList] at length
  omega

namespace Program

variable {program : Program} {word : WordSize} {func : FuncId} {function : Function}
  {here : Location} {id : InstId} {inst : Inst} {recipe : Recipe}

/-! ## What a recipe says about its instruction

`Program.recipe?` is the form of a record without its numbers.  Each lemma reads it at one shape of
instruction. -/

/-- The text of an instruction without a record of its own is all that is written of it. -/
theorem escape?_eq_some {id : InstId} {recipe : Recipe} (made : program.escape? id = some recipe) :
    ∃ text, program.instText id = .ok text ∧ recipe = ⟨.unimplemented, [.text text]⟩ := by
  rw [escape?] at made
  cases shown : program.instText id with
  | ok text =>
    rw [shown] at made
    cases made
    exact ⟨text, rfl, rfl⟩
  | error handle =>
    rw [shown] at made
    cases made

/-- A recipe has all the operands that the record keeps. -/
theorem written_of_recipe? (made : program.recipe? id inst = some recipe) :
    (∀ operand ∈ inst.writtenOperands, .operand operand ∈ recipe.sources)
      ∧ inst.writtenOperands.length ≤ recipe.sources.length := by
  have kept {opcode operands} (made : some (Recipe.ofOperands opcode operands) = some recipe)
      (all : ∀ operand ∈ inst.writtenOperands, operand ∈ operands)
      (length : inst.writtenOperands.length ≤ operands.length) :
      (∀ operand ∈ inst.writtenOperands, .operand operand ∈ recipe.sources)
        ∧ inst.writtenOperands.length ≤ recipe.sources.length := by
    cases made
    simpa [Recipe.ofOperands] using ⟨all, length⟩
  have all {opcode} (made : some (Recipe.ofOperands opcode inst.operands) = some recipe)
      (same : inst.writtenOperands = inst.operands) :=
    kept made (fun _ mem => same ▸ mem) (Nat.le_of_eq (by rw [same]))
  have none (empty : inst.writtenOperands = []) :
      (∀ operand ∈ inst.writtenOperands, .operand operand ∈ recipe.sources)
        ∧ inst.writtenOperands.length ≤ recipe.sources.length := by
    simp [empty]
  -- one case for each line of the recipes, in their order
  rw [recipe?] at made
  split at made
  · next kind => exact all made (by rw [Inst.writtenOperands, kind])
  · next kind => exact all made (by rw [Inst.writtenOperands, kind])
  · next kind => exact all made (by rw [Inst.writtenOperands, kind])
  · next kind => exact all made (by rw [Inst.writtenOperands, kind])
  · next kind => exact all made (by rw [Inst.writtenOperands, kind])
  · next kind operands =>
    split at made
    · cases made
      simp [Inst.writtenOperands, kind, operands]
    · cases made
  · cases made
  · next kind operands => exact none (by simp [Inst.writtenOperands, kind, operands])
  · next kind operands =>
    refine kept made ?_ ?_ <;> simp [Inst.writtenOperands, kind, operands]
  · next kind =>
    split at made
    · next callee last =>
      have split := List.dropLast_append_getLast? callee last
      have same : inst.writtenOperands = inst.operands.dropLast ++ [callee] := by
        rw [split, Inst.writtenOperands, kind]
      exact kept made (by simp [same, or_comm]) (by simp [same])
    · next empty =>
      exact none (by rw [Inst.writtenOperands, kind, List.getLast?_eq_none_iff.mp empty])
  · next kind operands =>
    split at made
    · cases made
      simp [Inst.writtenOperands, kind, operands]
    · cases made
  · next kind operands =>
    cases made
    simp [Inst.writtenOperands, kind, operands]
  · cases made
  · next notBothInt notBothFloat =>
    refine none ?_
    unfold Inst.writtenOperands
    split <;> simp_all
    next comparison _ _ _ _ => cases comparison <;> simp_all

/-- An instruction that is shown as text has that recipe. -/
theorem text_of_recipe? (escaped : inst.isEscaped = true)
    (made : program.recipe? id inst = some recipe) {text : String}
    (shown : program.instText id = .ok text) : .text text ∈ recipe.sources := by
  have done (made : program.escape? id = some recipe) : .text text ∈ recipe.sources := by
    obtain ⟨again, same, rfl⟩ := escape?_eq_some made
    cases shown.symm.trans same
    exact List.mem_singleton_self _
  unfold Inst.isEscaped at escaped
  rw [recipe?] at made
  split at made <;> simp_all
  next kind =>
    cases operands : inst.operands with
    | nil => exact done (by simpa [operands] using made)
    | cons callee arguments => simp [operands] at escaped

/-- The recipe of an allocation. -/
theorem alloca_of_recipe? {allocated : TypeId} (kind : inst.kind = .alloca allocated)
    (made : program.recipe? id inst = some recipe) :
    ∃ count, inst.operands = [count] ∧ program.isIntConstant count = .ok true
      ∧ .type allocated ∈ recipe.sources := by
  cases operands : inst.operands with
  | nil =>
    rw [recipe?, kind, operands] at made
    cases made
  | cons count others =>
    cases others with
    | cons =>
      rw [recipe?, kind, operands] at made
      cases made
    | nil =>
      rw [recipe?, kind, operands] at made
      dsimp only at made
      split at made
      · next constant =>
        cases made
        exact ⟨count, rfl, constant, List.mem_cons_self⟩
      · cases made

/-- The recipe of a `getelementptr`. -/
theorem offset_of_recipe? {source : TypeId} {base : Operand} {indices : List Operand}
    (kind : inst.kind = .getElementPtr source) (operands : inst.operands = base :: indices)
    (made : program.recipe? id inst = some recipe) :
    ∃ offset, program.pointerOffset source indices = .ok offset
      ∧ .constant (offsetConstant offset) ∈ recipe.sources := by
  rw [recipe?, kind, operands] at made
  dsimp only at made
  split at made
  · next offset folded =>
    cases made
    exact ⟨offset, folded, by simp⟩
  · cases made

/-- The recipe of a comparison. -/
theorem predicate_of_recipe? {comparison : Comparison} {left right : Operand}
    (kind : inst.kind = .compare comparison) (operands : inst.operands = [left, right])
    (made : program.recipe? id inst = some recipe) :
    ∃ predicate, comparison = .int predicate := by
  rw [recipe?, kind, operands] at made
  cases comparison with
  | int predicate => exact ⟨predicate, rfl⟩
  | float predicate => cases made

/-- What counts as a constant for an allocation is an integer of the program. -/
theorem int_of_isIntConstant {operand : Operand} (h : program.isIntConstant operand = .ok true) :
    ∃ count type bits, operand = .const count ∧ program.constant count = .ok (.int type bits) := by
  cases operand with
  | const count =>
    simp only [isIntConstant, bind_eq_ok_iff, pure_eq_ok_iff] at h
    obtain ⟨constant, found, isInt⟩ := h
    cases constant with
    | int type bits => exact ⟨count, type, bits, rfl, found⟩
    | _ => cases isInt
  | _ => cases h

/-! ## What an operand record says about its operand

The rules by which a record denotes an operand mention where the operand was found, and that is the
condition under which it may be used. -/

/-- What an operand record denotes was available where it was written. -/
theorem Denotes.available {tables : EncodeState} {operand : Operand} {record : OperandRecord}
    (h : program.Denotes tables func function here (.operand operand) record)
    (fits : record.Fits word) : program.Available func function here operand := by
  cases h with
  | constant | global | function => exact trivial
  | arg found owner => exact ⟨_, found, owner⟩
  | inst located earlier hasResult => exact ⟨_, located, earlier, hasResult⟩
  | block position =>
    have listed : _ ∈ function.blockTable := Table.mem_iff_position?.mpr ⟨_, position⟩
    simpa [Table.mem_def, Table.toList, Function.blockTable, Available] using listed
  | text => exact fits

/-! ## What a type record says about its type

The record decides the shape, and the shape has what the condition asks for. -/

/-- A type that is shown as text has a record with its text. -/
theorem DescribesType.of_text {tables : EncodeState} {type : TypeId} {record : TypeRecord}
    (h : program.DescribesType tables word type record) (shown : program.ShownAsText type) :
    record = .unimplemented (program.types.text type) := by
  cases shown <;> cases h <;> simp_all

/-- A pointer with a record is as wide as a word. -/
theorem DescribesType.of_ptr {tables : EncodeState} {type : TypeId} {record : TypeRecord}
    {addrSpace : UInt32} (h : program.DescribesType tables word type record)
    (found : program.types.shape type = .ok (.ptr addrSpace)) :
    (program.layout.pointerBytes addrSpace).toNat = word.bytes := by
  cases h <;> simp_all

/-- A function type has the positions of its parameters and of its result. -/
theorem DescribesType.of_func {tables : EncodeState} {type : TypeId} {record : TypeRecord}
    {params : List TypeId} {ret : TypeId} {vararg : Bool}
    (h : program.DescribesType tables word type record)
    (found : program.types.shape type = .ok (.func params ret vararg)) :
    ∃ positions index, record = .function positions index vararg
      ∧ DescribesTypes tables params positions := by
  cases h <;> simp_all

/-- A struct with a layout has the positions of its fields and where they begin. -/
theorem DescribesType.of_struct {tables : EncodeState} {type : TypeId} {record : TypeRecord}
    {layout : StructLayout} (h : program.DescribesType tables word type record)
    (laid : program.types.structLayout? program.layout type = .ok (some layout)) :
    ∃ shape positions, program.types.shape type = .ok (.struct shape)
      ∧ record = .struct positions (layout.offsets.map (· * 8))
      ∧ DescribesTypes tables shape.fields positions := by
  obtain ⟨shape, found⟩ := Types.exists_struct_of_structLayout? laid
  cases h <;> simp_all

end Program

/-! ## Encoded programs

`Stream.Encodes` puts together all that is known of a stream of a program, so that the conditions
can be shown from it alone. -/

/-- A stream of a program, and the tables that encoding it leaves. -/
structure Stream.Encodes (program : Program) (word : WordSize) (tables : EncodeState)
    (stream : Stream) : Prop where
  /-- The records describe the program in these tables. -/
  describes : stream.Describes program word tables
  /-- The stream can be written and read back. -/
  fits : stream.Fits word
  /-- The tables have nothing twice, and parts with what they are part of. -/
  sound : Sound program tables
  /-- The tables have nothing that the program does not use. -/
  within : tables.Within program

namespace Program

variable {program : Program} {word : WordSize} {func : FuncId} {function : Function}
  {here : Location} {id : InstId} {inst : Inst} {tables : EncodeState} {stream : Stream}

/-- The bytes of an encoded program read as a stream of it, whose globals have the names that come
with the bytes. -/
theorem encodes_of_encode (built : program.Built) {module : EncodedModule}
    (h : program.encode word = .ok module) :
    ∃ stream, Stream.read? word module.bytes = some stream
      ∧ module.globals = stream.globals.map (·.name)
      ∧ Stream.Encodes program word (program.finalTables word) stream := by
  obtain ⟨stream, tables, encoded, bytes, globals, same⟩ := encodeStream_of_encode h
  obtain ⟨sound, describes, fits⟩ := encodeStream_spec (.initial program) encoded
  have settled : Settles program word (program.encodeStream word) fun _ => True :=
    settles_encodeStream built
  refine ⟨stream, bytes ▸ Stream.read?_toBytes fits, globals, describes.of_sameTables same, fits,
    same.advances.sound sound, ?_⟩
  rcases settled .initial (.initial program) with
    ⟨again, after, run, within, -⟩ | ⟨error, after, run, -⟩
  · cases encoded.symm.trans run
    exact within.of_sameTables same
  · cases encoded.symm.trans run

/-- A program that is encoded has a stream. -/
theorem exists_encodes (built : program.Built) {module : EncodedModule}
    (h : program.encode word = .ok module) :
    ∃ tables stream, Stream.Encodes program word tables stream := by
  obtain ⟨stream, -, -, encodes⟩ := encodes_of_encode built h
  exact ⟨_, stream, encodes⟩

end Program

namespace Stream.Encodes

variable {program : Program} {word : WordSize} {func : FuncId} {function : Function}
  {here : Location} {id : InstId} {inst : Inst} {tables : EncodeState} {stream : Stream}

open Program

/-- Every function has a record, at its own index. -/
theorem exists_function (h : stream.Encodes program word tables)
    (found : program.function func = .ok function) :
    ∃ record, program.DescribesFunction tables func record ∧ record.Fits word := by
  obtain ⟨record, there, described⟩ :=
    exists_right_of_forall₂ h.describes.functions (getElem?_functionIds found)
  exact ⟨record, described, h.fits.functions record (List.mem_of_getElem? there)⟩

/-- The record of an instruction that gets into the stream. -/
theorem exists_inst (h : stream.Encodes program word tables)
    (emits : program.Emits func function here id inst) :
    ∃ recipe record, program.recipe? id inst = some recipe
      ∧ program.Follows tables func function here inst.type recipe record ∧ record.Fits word := by
  obtain ⟨owner, described, fits⟩ := h.exists_function emits.found
  obtain ⟨record, there, inst, recipe, known, made, follows⟩ :=
    described.exists_record emits.found emits.located
  cases emits.known.symm.trans known
  refine ⟨recipe, record, made, follows, ?_⟩
  simp only [FunctionRecord.instAt?, Option.bind_eq_bind, Option.bind_eq_some_iff] at there
  obtain ⟨block, listed, atIndex⟩ := there
  exact fits.insts block (List.mem_of_getElem? listed) record (List.mem_of_getElem? atIndex)

/-- What the record says of an operand that it keeps. -/
theorem exists_written (h : stream.Encodes program word tables)
    (emits : program.Emits func function here id inst) {operand : Operand}
    (written : operand ∈ inst.writtenOperands) :
    ∃ record, program.Denotes tables func function here (.operand operand) record
      ∧ record.Fits word := by
  obtain ⟨recipe, owner, made, follows, fits⟩ := h.exists_inst emits
  obtain ⟨record, listed, denotes⟩ :=
    exists_mem_of_forall₂ follows.operands ((written_of_recipe? made).1 operand written)
  exact ⟨record, denotes, fits.operands record listed⟩

/-! ### What is used is in the tables

What a program uses is defined by the places where it is used: an operand that a record keeps, a
type that a function has, a part of a type that is used.  Each place has its record, the record has
a position, and what is at the position is what was used. -/

/-- A global that is used is in the table of globals: some record denotes it by its index. -/
theorem mem_globals (h : stream.Encodes program word tables) {id : GlobalId}
    (used : program.UsesGlobal id) : id ∈ tables.globals := by
  obtain ⟨emits, written, found⟩ := used
  obtain ⟨record, denotes, -⟩ := h.exists_written emits written
  cases denotes with
  | constant again plain =>
    cases found.symm.trans again
    exact absurd trivial plain
  | global again position =>
    cases found.symm.trans again
    exact Table.mem_iff_position?.mpr ⟨_, position⟩
  | function again => cases found.symm.trans again

/-- A constant that is used is in the table of constants. -/
theorem mem_constants (h : stream.Encodes program word tables) {constant : Constant}
    (used : program.UsesConstant constant) : constant ∈ tables.constants := by
  cases used with
  | operand emits written found plain =>
    obtain ⟨record, denotes, -⟩ := h.exists_written emits written
    cases denotes with
    | constant again _ position =>
      cases found.symm.trans again
      exact Table.mem_iff_position?.mpr ⟨_, position⟩
    | global again | function again =>
      cases found.symm.trans again
      exact absurd trivial plain
  | offset emits kind operands folded =>
    obtain ⟨recipe, owner, made, follows, -⟩ := h.exists_inst emits
    obtain ⟨offset, again, listed⟩ := offset_of_recipe? kind operands made
    cases folded.symm.trans again
    obtain ⟨record, -, denotes⟩ := exists_mem_of_forall₂ follows.operands listed
    cases denotes with
    | entry position => exact Table.mem_iff_position?.mpr ⟨_, position⟩
  | initializer used found initialized value =>
    exact h.within.initializers _ (h.mem_globals used) found initialized value

/-- A type that is used is in the table of types, since the table is closed under parts. -/
theorem mem_types (h : stream.Encodes program word tables) {id : TypeId}
    (used : program.UsesType id) : id ∈ tables.types := by
  induction used with
  | signature found =>
    obtain ⟨record, ⟨function, again, -, position, -⟩, -⟩ := h.exists_function found
    cases found.symm.trans again
    exact Table.mem_iff_position?.mpr ⟨_, position⟩
  | result emits =>
    obtain ⟨recipe, record, -, follows, -⟩ := h.exists_inst emits
    exact Table.mem_iff_position?.mpr ⟨_, follows.type⟩
  | allocated emits kind =>
    obtain ⟨recipe, owner, made, follows, -⟩ := h.exists_inst emits
    obtain ⟨-, -, -, listed⟩ := alloca_of_recipe? kind made
    obtain ⟨record, -, denotes⟩ := exists_mem_of_forall₂ follows.operands listed
    cases denotes with
    | type position => exact Table.mem_iff_position?.mpr ⟨_, position⟩
  | constant used =>
    obtain ⟨record, -, position, -⟩ :=
      exists_mem_of_forall₂ h.describes.constants (h.mem_constants used)
    exact Table.mem_iff_position?.mpr ⟨_, position⟩
  | part used found listed ih =>
    obtain ⟨children, again, all⟩ := h.sound.closed _ ih
    obtain ⟨shape, same, rfl⟩ := Types.children_eq_ok_iff.mp again
    cases found.symm.trans same
    exact all _ listed

/-- The record of a type that is used. -/
theorem exists_type (h : stream.Encodes program word tables) {id : TypeId}
    (used : program.UsesType id) :
    ∃ record, program.DescribesType tables word id record ∧ record.Fits word := by
  obtain ⟨record, listed, described⟩ := exists_mem_of_forall₂ h.describes.types (h.mem_types used)
  exact ⟨record, described, h.fits.types record listed⟩

/-- A global that is used has a record. -/
theorem exists_global (h : stream.Encodes program word tables) {id : GlobalId}
    (used : program.UsesGlobal id) :
    ∃ record, program.DescribesGlobal id record ∧ record.Fits := by
  obtain ⟨record, listed, described⟩ :=
    exists_mem_of_forall₂ h.describes.globals (h.mem_globals used)
  exact ⟨record, described, h.fits.globals record listed⟩

/-! ### An encoded program is well-formed

Every condition is read off the record that would violate it.  The conditions on numbers need the
tables: a list without repetitions of things that are used is no longer than the table that has all
of them, and the size of the table fits a word, because it was written in front of its section. -/

/-- The record of a function has one list of records for each block, and in it one for each
instruction that gets into the stream. -/
theorem block_lengths (h : stream.Encodes program word tables)
    (found : program.function func = .ok function) :
    function.blocks.length ≤ word.maxValue
      ∧ ∀ insts ∈ program.body function, insts.length ≤ word.maxValue := by
  obtain ⟨record, described, fits⟩ := h.exists_function found
  have blocks := described.blocks found
  constructor
  · have length := blocks.length_eq
    rw [List.length_zipIdx, body, List.length_map] at length
    exact length ▸ fits.count
  · intro insts listed
    obtain ⟨position, there⟩ := List.mem_iff_getElem?.mp listed
    have entry : (insts, position) ∈ (program.body function).zipIdx :=
      List.mk_mem_zipIdx_iff_getElem?.mpr there
    obtain ⟨records, inRecord, described⟩ := exists_mem_of_forall₂ blocks entry
    have length := described.length_eq
    rw [List.length_zipIdx] at length
    exact length ▸ fits.counts records inRecord

/-- **An encoded program is well-formed.** -/
theorem wellFormed (h : stream.Encodes program word tables) : program.WellFormed word where
  -- what an instruction has to be follows from the recipe that its record was made by
  count emits kind := by
    obtain ⟨recipe, -, made, -, -⟩ := h.exists_inst emits
    obtain ⟨operand, alone, constant, -⟩ := alloca_of_recipe? kind made
    obtain ⟨count, type, bits, rfl, found⟩ := int_of_isIntConstant constant
    exact ⟨count, type, bits, alone, found⟩
  offset emits kind operands := by
    obtain ⟨recipe, -, made, -, -⟩ := h.exists_inst emits
    obtain ⟨offset, folded, -⟩ := offset_of_recipe? kind operands made
    obtain ⟨exact, reached, addresses, -⟩ := pointerOffset_eq_ok_iff.mp folded
    exact ⟨exact, reached, addresses⟩
  predicate emits kind operands := by
    obtain ⟨recipe, -, made, -, -⟩ := h.exists_inst emits
    exact predicate_of_recipe? kind operands made
  available emits operand written := by
    obtain ⟨record, denotes, fits⟩ := h.exists_written emits written
    exact denotes.available fits
  -- and what has to fit follows from a record that fits
  functionName found := by
    obtain ⟨record, ⟨function, again, name, -, -⟩, fits⟩ := h.exists_function found
    cases found.symm.trans again
    exact name ▸ fits.name
  instText emits escaped shown := by
    obtain ⟨recipe, owner, made, follows, fits⟩ := h.exists_inst emits
    obtain ⟨record, listed, denotes⟩ :=
      exists_mem_of_forall₂ follows.operands (text_of_recipe? escaped made shown)
    have clean := fits.operands record listed
    cases denotes
    exact clean
  globalName used found := by
    obtain ⟨record, ⟨global, again, rfl⟩, fits⟩ := h.exists_global used
    cases found.symm.trans again
    exact fits
  typeText used shown := by
    obtain ⟨record, described, fits⟩ := h.exists_type used
    cases described.of_text shown
    exact fits
  pointer used found := by
    obtain ⟨record, described, -⟩ := h.exists_type used
    exact described.of_ptr found
  bitOffset used laid offset listed := by
    obtain ⟨record, described, fits⟩ := h.exists_type used
    obtain ⟨shape, positions, -, rfl, -⟩ := described.of_struct laid
    exact fits.2.2.2 _ (List.mem_map_of_mem listed)
  fieldCount used found laid := by
    obtain ⟨record, described, fits⟩ := h.exists_type used
    obtain ⟨shape, positions, again, rfl, fields⟩ := described.of_struct laid
    cases found.symm.trans again
    exact fields.length_eq ▸ fits.1
  paramCount used found := by
    obtain ⟨record, described, fits⟩ := h.exists_type used
    obtain ⟨positions, index, rfl, parameters⟩ := described.of_func found
    exact parameters.length_eq ▸ fits.1
  operandCount emits := by
    obtain ⟨recipe, record, made, follows, fits⟩ := h.exists_inst emits
    have written := (written_of_recipe? made).2
    have length := follows.operands.length_eq
    have count := fits.count
    omega
  instCount found listed := (h.block_lengths found).2 _ listed
  blockCount found := (h.block_lengths found).1
  functionCount := by
    have length := h.describes.functions.length_eq
    rw [functionIds, List.length_map, List.length_range] at length
    exact length ▸ h.fits.functionCount
  -- the tables may list more than is used, and even so there are few enough of them
  globalCount := by
    have length := h.describes.globals.length_eq
    rw [Table.length_toList] at length
    exact .of_table (fun _ => h.mem_globals) (length ▸ h.fits.globalCount)
  constantCount := by
    have length := h.describes.constants.length_eq
    rw [Table.length_toList] at length
    exact .of_table (fun _ => h.mem_constants) (length ▸ h.fits.constantCount)
  typeCount := by
    have length := h.describes.types.length_eq
    rw [Table.length_toList] at length
    exact .of_table (fun _ => h.mem_types) (length ▸ h.fits.typeCount)

end Stream.Encodes

/-! ## The condition

Both halves together.  That a well-formed program can be encoded comes from the judgment, that an
encoded one is well-formed from its stream, and neither proof knows of the other. -/

namespace Program

variable {program : Program} {word : WordSize}

/-- A well-formed program can be encoded, and an error has a cause. -/
theorem encode_of_built (built : program.Built) :
    (program.WellFormed word → ∃ module, program.encode word = .ok module)
      ∧ ∀ {error}, program.encode word = .error error → program.Explains error := by
  have outcome : program.encode word = ((program.encodeModule word).run.run .initial).1 := rfl
  have settled : Settles program word (program.encodeModule word) fun _ => True :=
    settles_encodeModule built
  rcases settled .initial (.initial program) with
    ⟨module, state, run, -, -⟩ | ⟨error, state, run, cause, ill⟩
  · rw [outcome, show _ = _ from run]
    exact ⟨fun _ => ⟨module, rfl⟩, fun h => nomatch h⟩
  · rw [outcome, run]
    exact ⟨fun formed => absurd formed ill, fun h => Except.error.inj h ▸ cause⟩

/-- A block has as many records as instructions that get into the stream. -/
theorem length_of_encodeInsts {block position : Nat} {insts : List InstId}
    {scope after : FunctionScope} {records : List InstRecord} {s t : EncodeState}
    (run : Yields (program.encodeInsts word block scope position insts) s (records, after) t) :
    records.length = insts.length := by
  induction insts generalizing scope position records s with
  | nil =>
    obtain ⟨same, -⟩ := yields_pure_iff.mp run
    cases same
    rfl
  | cons id rest ih =>
    simp only [encodeInsts, yields_bind_iff, yields_pure_iff, Prod.mk.injEq] at run
    obtain ⟨_, _, -, _, _, -, _, _, -, ⟨others, _⟩, _, more, ⟨rfl, rfl⟩, rfl⟩ := run
    exact congrArg (· + 1) (ih more)

end Program

/-- **Encoding fails exactly on programs that are not well-formed.**  Errors that would be about
the encoder never occur: no error names a handle outside its arena, none a function without a
position, and none a block with another number of records than the one written in front of them,
since there is a record for each of its instructions. -/
theorem encode_iff_wellFormed {program : Program} (built : program.Built) (word : WordSize) :
    ((∃ module, program.encode word = .ok module) ↔ program.WellFormed word)
      ∧ (∀ handle, program.encode word ≠ .error (.dangling handle))
      ∧ (∀ function block expected emitted, program.encode word
        ≠ .error (.instructionCountMismatch function block expected emitted))
      ∧ (∀ name, program.encode word ≠ .error (.unknownFunction name))
      ∧ ∀ {block position : Nat} {insts : List InstId} {scope after : FunctionScope}
        {records : List InstRecord} {s t : EncodeState},
        Yields (program.encodeInsts word block scope position insts) s (records, after) t →
        records.length = insts.length := by
  have encodes : program.WellFormed word → _ := (Program.encode_of_built built).1
  refine ⟨⟨?_, encodes⟩, fun _ => (Program.encode_of_built built).2,
    fun _ _ _ _ => (Program.encode_of_built built).2,
    fun _ => (Program.encode_of_built built).2, ?_⟩
  · rintro ⟨module, outcome⟩
    obtain ⟨tables, stream, encoded⟩ := Program.exists_encodes built outcome
    exact encoded.wellFormed
  · exact Program.length_of_encodeInsts

/-- A program of one function that adds one to its argument. -/
theorem encode_iff_wellFormed_addOne :
    Program.addOne.Built ∧ Program.addOne.WellFormed .eight
      ∧ ∃ module, Program.addOne.encode .eight = .ok module := by
  have condition := (encode_iff_wellFormed Program.built_addOne .eight).1
  exact ⟨Program.built_addOne, condition.mp encode_addOne, encode_addOne⟩

end IrStream
