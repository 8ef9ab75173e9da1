import IrStream.Proofs.Encode.Tally
import IrStream.Proofs.Pairing.Basic
import Mathlib.Algebra.GroupWithZero.Nat

/-!
# The statistics agree with the stream

`EncodeStats.Accounts` says what the statistics of an encoded program are: numbers that can be
counted in the stream that the bytes stand for, and in the log.  Debug instructions are not in the
stream; they are what the blocks of the program have besides.

The sections add their counts as `EncodeState.Adds` has it, and what all of them add to the empty
counts is what is counted in the stream.  An integer of no bits would have a payload that is empty
although its value is kept, so there must be no such type.

The encoder increments counters in many places, some of them deep inside a recipe, and the log is
written in others.  The claim of this module is that a reader of the stream would come to the same
numbers.  It is proved from the inside out.

* `Encode/Tally.lean` treats instructions: what is added while one is encoded is read off its
  record.
* Here come blocks, functions, constants and types.  Each has a function that counts in a row of
  records (`countBlocks`, `countFunctions`, `countConstants`, `countTypes`), and each of these is
  additive, so a row adds what is counted in the row.
* `countStream` adds them up for the whole stream, and `countStream_eq` writes the sum out, counter
  by counter.

Skipped instructions are the exception, since the stream has none.  They are counted as the
instructions that the blocks list beyond the records that they have.
-/

set_option autoImplicit false

namespace IrStream

open Encoding EncodeState

/-! ## What is counted in a stream -/

/-- The instructions of a function, block by block. -/
def FunctionRecord.insts (record : FunctionRecord) : List InstRecord :=
  record.blocks.flatten

/-- The event that says that a function was encoded.  It holds the name and the numbers of blocks
and instructions, read off the record. -/
def FunctionRecord.event (record : FunctionRecord) : LogEvent :=
  .encodedFunction record.name record.blocks.length record.insts.length

namespace Stream

variable (stream : Stream)

def blocks : List (List InstRecord) :=
  stream.functions.flatMap (·.blocks)

def insts : List InstRecord :=
  stream.functions.flatMap (·.insts)

def operands : List OperandRecord :=
  stream.insts.flatMap (·.operands)

end Stream

/-- The statistics of a program that was encoded to a stream with a log.  Whatever can be counted in
the stream is counted there; the events are those of the log. -/
structure EncodeStats.Accounts (stats : EncodeStats) (program : Program) (stream : Stream)
    (log : List LogEvent) : Prop where
  /-- Functions, whether they have a body or not. -/
  functions : stats.functions = stream.functions.length
  /-- Functions without blocks. -/
  declarations : stats.declarations = stream.functions.countP (·.blocks.isEmpty)
  /-- Blocks of all functions. -/
  blocks : stats.blocks = stream.blocks.length
  /-- Instructions of all blocks. -/
  instructions : stats.instructions = stream.insts.length
  /-- What is not in the stream was skipped. -/
  skipped : stats.instructions + stats.skippedInstructions
    = (program.blocks.toList.flatMap (·.insts)).length
  /-- Instructions that are shown as text. -/
  unimplementedInstructions :
    stats.unimplementedInstructions = stream.insts.countP (·.opcode == .unimplemented)
  /-- The text of an instruction is the one operand of its record. -/
  unimplementedOperands : stats.unimplementedOperands + stats.unimplementedInstructions
    = stream.operands.countP (·.kind == .unimplemented)
  /-- Constants whose bytes are not written. -/
  unimplementedConstants :
    stats.unimplementedConstants = stream.constants.countP (·.payload.isEmpty)
  /-- Types that are shown as text. -/
  unimplementedTypes : stats.unimplementedTypes = stream.types.countP (·.kind == .unimplemented)
  /-- The section of types. -/
  types : stats.types = stream.types.length
  /-- The section of constants. -/
  constants : stats.constants = stream.constants.length
  /-- The section of globals. -/
  globals : stats.globals = stream.globals.length
  /-- Whatever is counted as unimplemented was logged with the message of its counter. -/
  logged : ∀ entry ∈ unimplementedCounters, timesLogged entry.1 log = entry.2 stats
  /-- There is an event for each function, with its name and the numbers of its blocks and its
  instructions. -/
  encoded : functionEvents log = stream.functions.map (·.event)
  /-- Together these are all the instructions. -/
  total : (stream.functions.map (·.insts.length)).sum = stats.instructions

/-! ## Functions -/

namespace Program

variable (program : Program)

/-- The instructions of a block that do not get into the stream.  They are the ones whose kind is
that of a debug instruction. -/
def skippedOf (id : BlockId) : List InstId :=
  (program.instsOf id).filter (!program.isEmitted ·)

/-- What the records of blocks stand for among the counts.  Skipped instructions are not in the
records, so they are counted in the program. -/
def countBlocks (ids : List BlockId) (records : List (List InstRecord)) : EncodeStats :=
  { instructions := records.flatten.length
    skippedInstructions := (ids.flatMap program.skippedOf).length } + countInsts records.flatten

/-- What functions count for besides their instructions.  A function without blocks is a
declaration. -/
def countHeads (records : List FunctionRecord) : EncodeStats where
  functions := records.length
  declarations := records.countP (·.blocks.isEmpty)
  blocks := (records.flatMap (·.blocks)).length

/-- What the records of functions stand for among the counts. -/
def countFunctions (ids : List FuncId) (records : List FunctionRecord) : EncodeStats :=
  countHeads records
    + program.countBlocks (ids.flatMap program.blocksOf) (records.flatMap (·.blocks))

variable {program} {word : WordSize} {func : FuncId} {function : Function} {s t : EncodeState}

theorem countBlocks_append (ids more : List BlockId) (records others : List (List InstRecord)) :
    program.countBlocks (ids ++ more) (records ++ others)
      = program.countBlocks ids records + program.countBlocks more others := by
  simp only [countBlocks, List.flatten_append, List.flatMap_append, countInsts_append,
    List.length_append]
  rw [add_add_add_comm]
  rfl

theorem countFunctions_append (ids more : List FuncId) (records others : List FunctionRecord) :
    program.countFunctions (ids ++ more) (records ++ others)
      = program.countFunctions ids records + program.countFunctions more others := by
  have heads : countHeads (records ++ others) = countHeads records + countHeads others := by
    simp [countHeads, EncodeStats.add_def]
  rw [countFunctions, List.flatMap_append, List.flatMap_append, countBlocks_append, heads,
    add_add_add_comm]
  rfl

theorem length_eq_of_mapM {α β : Type} {step : α → Encoding β} {list : List α} {values : List β}
    (run : Yields (list.mapM step) s values t) : list.length = values.length :=
  (mapM_spec (fun _ _ => True) (fun _ _ _ => True) (fun _ => trivial) (fun _ _ => trivial)
    (fun _ _ => trivial) (fun _ _ _ => ⟨trivial, trivial⟩) run).2.length_eq

theorem adds_encodeInstAt {here : Location} {id : InstId} {record : InstRecord}
    (run : Yields (program.encodeInstAt word func function here id) s record t) :
    s.Adds (countInsts [record]) [] t ∧ record.ShowsText := by
  simp only [encodeInstAt, yields_bind_iff, yields_dangling_iff, yields_pure_iff] at run
  obtain ⟨_, _, written, _, _, ⟨-, rfl⟩, _, _, ⟨-, rfl⟩, rfl, rfl⟩ := run
  exact adds_encodeInst written

/-- What is not emitted of a block is skipped.  The encoder counts them by a difference, since it
has both lists at hand. -/
theorem length_skippedOf {id : BlockId} {block : Block} {insts : List InstId}
    (found : program.block id = .ok block) (emitted : program.emitted block = .ok insts) :
    block.insts.length - insts.length = (program.skippedOf id).length := by
  have parts := (List.filter_append_perm program.isEmitted block.insts).length_eq
  rw [List.length_append] at parts
  rw [skippedOf, instsOf_of_block found, emitted_eq_ok emitted]
  omega

/-- **A block** adds its instructions, those that are skipped included.  What is skipped is counted
in front of the records, and the instructions behind them. -/
theorem adds_encodeBlockAt {position : Nat} {id : BlockId} {records : List InstRecord}
    (run : Yields (program.encodeBlockAt word func function position id) s records t) :
    s.Adds (program.countBlocks [id] [records]) [] t ∧ ∀ record ∈ records, record.ShowsText := by
  simp only [encodeBlockAt, yields_bind_iff, yields_dangling_iff, yields_sized_iff,
    yields_pure_iff] at run
  obtain ⟨block, _, ⟨found, rfl⟩, insts, s, ⟨emitted, rfl⟩, _, _, skipped, _, a, ⟨rfl, -, rfl⟩,
    _, b, encoded, _, _, counted, rfl, rfl⟩ := run
  obtain ⟨adds, shows⟩ := mapM_adds (fun _ => countInsts) (fun _ => []) ⟨rfl, rfl⟩
    (fun _ _ y ys => ⟨countInsts_append [y] ys, rfl⟩) adds_encodeInstAt encoded
  have length := length_eq_of_mapM encoded
  rw [List.length_zipIdx] at length
  have first : s.Adds { skippedInstructions := (program.skippedOf id).length } [] a :=
    adds_count (by simp [unimplementedCounters])
      (fun stats => by simp [EncodeStats.add_def, length_skippedOf found emitted]) skipped
  have last : b.Adds { instructions := records.length } [] t :=
    adds_count (by simp [unimplementedCounters])
      (fun stats => by simp [EncodeStats.add_def, length]) counted
  refine ⟨?_, shows⟩
  have whole : { skippedInstructions := (program.skippedOf id).length } + countInsts records
      + { instructions := records.length } = program.countBlocks [id] [records] := by
    simp [countBlocks, EncodeStats.add_def, countInsts]
  exact whole ▸ (first.trans adds).trans last

/-- **A function** adds its blocks, and the event that says so.  The event comes last, when all
blocks are written. -/
theorem adds_encodeFunction {id : FuncId} {record : FunctionRecord}
    (run : Yields (program.encodeFunction word id) s record t) :
    s.Adds (program.countFunctions [id] [record]) [record.event] t
      ∧ ∀ inst ∈ record.insts, inst.ShowsText := by
  simp only [encodeFunction, yields_bind_iff, yields_dangling_iff, yields_unterminated_iff,
    yields_sized_iff, yields_get_iff, yields_pure_iff] at run
  obtain ⟨function, _, ⟨found, rfl⟩, _, s, ⟨rfl, -, rfl⟩, _, _, registered, index, _, ⟨rfl, -, rfl⟩,
    _, _, ⟨rfl, -, rfl⟩, _, a, ⟨rfl, rfl⟩, blocks, b, encoded, _, _, counted, _, c, ⟨rfl, rfl⟩, _,
    _, logged, rfl, rfl⟩ := run
  rw [encodeBlocks_ofFunction] at encoded
  obtain ⟨adds, shows⟩ := mapM_adds (fun entries => program.countBlocks (entries.map Prod.fst))
    (fun _ => []) ⟨rfl, rfl⟩
    (fun x xs y ys => ⟨countBlocks_append [x.1] (xs.map Prod.fst) [y] ys, rfl⟩)
    adds_encodeBlockAt encoded
  have length := length_eq_of_mapM encoded
  rw [List.zipIdx_map_fst] at adds
  rw [List.length_zipIdx] at length
  have bodiless : function.isDeclaration = blocks.isEmpty := by
    rw [Function.isDeclaration, Bool.eq_iff_iff, List.isEmpty_iff_length_eq_zero,
      List.isEmpty_iff_length_eq_zero, length]
  have own : b.Adds (countHeads [⟨function.name, index, blocks⟩]) [] c :=
    adds_count (by simp [unimplementedCounters, countHeads])
      (fun stats => by
        simp [EncodeStats.add_def, countHeads, List.countP_singleton, bodiless, length]) counted
  have since : c.stats.instructions - a.stats.instructions = blocks.flatten.length := by
    rw [own.stats, adds.stats]
    simp [EncodeStats.add_def, countHeads, countBlocks, countInsts]
  rw [length, since] at logged
  have written := (adds.trans own).trans (adds_log_of_zero rfl logged)
  refine ⟨(quiet_registerType registered).trans_adds ?_, fun inst mem => ?_⟩
  · have whole : program.countBlocks function.blocks blocks
        + countHeads [⟨function.name, index, blocks⟩] + 0
        = program.countFunctions [id] [⟨function.name, index, blocks⟩] := by
      rw [add_zero, add_comm, countFunctions, List.flatMap_singleton, List.flatMap_singleton,
        blocksOf_of_function found]
    exact whole ▸ written
  · obtain ⟨block, listed, mem⟩ := List.mem_flatten.mp mem
    exact shows block listed inst mem

/-! ## The other sections

Constants and types are counted when nothing of their value is kept, and globals add nothing. -/

/-- What the records of constants stand for among the counts.  A record without bytes is one of
which only the type is kept. -/
def countConstants (records : List ConstantRecord) : EncodeStats where
  unimplementedConstants := records.countP (·.payload.isEmpty)

/-- What the records of types stand for among the counts.  A type with a record of its own is not
counted here. -/
def countTypes (records : List TypeRecord) : EncodeStats where
  unimplementedTypes := records.countP (·.kind == .unimplemented)

theorem quiet_mapM {α β : Type} {step : α → Encoding β} {list : List α} {values : List β}
    (each : ∀ {x y a b}, Yields (step x) a y b → a.Quiet b)
    (run : Yields (list.mapM step) s values t) : s.Quiet t :=
  (mapM_spec Quiet (fun _ _ _ => True) .refl .trans (fun _ _ => trivial)
    (fun _ _ run => ⟨each run, trivial⟩) run).1

/-- A payload that is kept has bytes, if no integer is without bits.  An integer of no width would
have no bytes either, and then records would not tell what was lost. -/
theorem payload_ne_nil (proper : ∀ id, program.types.shape id ≠ .ok (.int 0)) {constant : Constant}
    {bytes : List UInt8} (kept : program.constantPayload? constant = .ok (some bytes)) :
    bytes ≠ [] := by
  unfold constantPayload? at kept
  split at kept
  · next type bits =>
    simp only [intPayload?, bind_eq_ok_iff] at kept
    obtain ⟨shape, found, kept⟩ := kept
    split at kept
    · next width =>
      cases kept
      have wide : 0 < width.toNat := by
        refine Nat.pos_of_ne_zero fun none => proper type ?_
        rw [found, UInt32.toNat_inj.mp (none.trans (UInt32.toNat_zero).symm)]
      have some : 0 < intBytes width := by
        rw [intBytes]
        omega
      exact List.ne_nil_of_length_pos (by rwa [length_littleEndian])
    · cases kept
  · cases kept

/-- **A constant** is counted if nothing is kept of its value.  Whether anything is kept is decided
by the sort of the constant. -/
theorem adds_encodeConstantRecord (proper : ∀ id, program.types.shape id ≠ .ok (.int 0))
    {constant : Constant} {record : ConstantRecord}
    (run : Yields (program.encodeConstantRecord word constant) s record t) :
    s.Adds (countConstants [record]) [] t := by
  rw [encodeConstantRecord] at run
  simp only [yields_bind_iff, yields_dangling_iff] at run
  obtain ⟨payload?, _, ⟨found, rfl⟩, run⟩ := run
  have written : ∀ {a}, Yields (do
      let type ← sized word (← registerType program constant.type)
      let _ ← sized word (payload?.getD []).length
      return (⟨type, payload?.getD []⟩ : ConstantRecord)) a record t →
      a.Quiet t ∧ record.payload = payload?.getD [] := by
    intro a run
    simp only [yields_bind_iff, yields_sized_iff, yields_pure_iff] at run
    obtain ⟨_, _, registered, _, _, ⟨rfl, -, rfl⟩, _, _, ⟨rfl, -, rfl⟩, rfl, rfl⟩ := run
    exact ⟨quiet_registerType registered, rfl⟩
  cases payload? with
  | none =>
    rw [Option.isNone_none, if_pos rfl, yields_bind_iff] at run
    obtain ⟨text, _, shown, run⟩ := run
    obtain ⟨-, rfl⟩ := yields_dangling_iff.mp shown
    rw [yields_bind_iff] at run
    obtain ⟨_, _, logged, run⟩ := run
    rw [yields_bind_iff] at run
    obtain ⟨_, _, counted, run⟩ := run
    obtain ⟨quiet, payload⟩ := written run
    have counts : countConstants [record] = (LogEvent.unimplementedConstant text).counts := by
      simp [countConstants, LogEvent.counts, payload]
    rw [counts]
    exact (adds_note rfl (fun _ => rfl) logged counted).trans_quiet quiet
  | some bytes =>
    rw [Option.isNone_some, if_neg Bool.false_ne_true] at run
    obtain ⟨quiet, payload⟩ := written run
    have counts : countConstants [record] = 0 := by
      simp [countConstants, EncodeStats.zero_def, payload, payload_ne_nil proper found]
    rw [counts]
    exact quiet.adds

/-- The constants section adds what is counted in it. -/
theorem adds_encodeConstants (proper : ∀ id, program.types.shape id ≠ .ok (.int 0))
    {records : List ConstantRecord} (run : Yields (program.encodeConstants word) s records t) :
    s.Adds (countConstants records) [] t := by
  simp only [encodeConstants, yields_bind_iff, yields_get_iff, yields_sized_iff] at run
  obtain ⟨_, _, ⟨rfl, rfl⟩, _, _, ⟨rfl, -, rfl⟩, run⟩ := run
  refine (mapM_adds (F := fun _ => True) (fun _ => countConstants) (fun _ => []) ⟨rfl, rfl⟩
    (fun _ _ y ys => ⟨?_, rfl⟩)
    (fun run => ⟨adds_encodeConstantRecord proper run, trivial⟩) run).1
  rw [← List.singleton_append]
  simp only [countConstants, List.countP_append]
  rfl

/-- The globals section adds nothing.  Globals and what they begin with are in the tables by then.
-/
theorem quiet_encodeGlobals {records : List GlobalRecord}
    (run : Yields (program.encodeGlobals word) s records t) : s.Quiet t := by
  simp only [encodeGlobals, yields_bind_iff, yields_get_iff, yields_sized_iff] at run
  obtain ⟨_, _, ⟨rfl, rfl⟩, _, _, ⟨rfl, -, rfl⟩, run⟩ := run
  refine quiet_mapM (fun run => ?_) run
  simp only [encodeGlobalRecord, yields_bind_iff, yields_dangling_iff, yields_unterminated_iff,
    yields_pure_iff] at run
  obtain ⟨global, _, ⟨found, rfl⟩, _, _, ⟨rfl, -, rfl⟩, rfl, rfl⟩ := run
  exact .refl _

theorem adds_encodeTypeText {id : TypeId} {record : TypeRecord}
    (run : Yields (program.encodeTypeText id) s record t) : s.Adds (countTypes [record]) [] t := by
  simp only [encodeTypeText, yields_bind_iff, yields_unterminated_iff, yields_pure_iff] at run
  obtain ⟨_, _, logged, _, _, counted, _, _, ⟨rfl, -, rfl⟩, rfl, rfl⟩ := run
  exact adds_note rfl (fun _ => rfl) logged counted

theorem quiet_encodeTypeIndex {id : TypeId} {index : Nat}
    (run : Yields (program.encodeTypeIndex word id) s index t) : s.Quiet t := by
  simp only [encodeTypeIndex, yields_bind_iff, yields_sized_iff] at run
  obtain ⟨_, _, registered, rfl, -, rfl⟩ := run
  exact quiet_registerType registered

/-- **A type** is counted if its record is its text.  Its parts are registered, which counts
nothing. -/
theorem adds_encodeTypeRecord {id : TypeId} {record : TypeRecord}
    (run : Yields (program.encodeTypeRecord word id) s record t) :
    s.Adds (countTypes [record]) [] t := by
  rw [encodeTypeRecord] at run
  simp only [yields_bind_iff, yields_dangling_iff] at run
  obtain ⟨shape, _, ⟨found, rfl⟩, run⟩ := run
  cases shape with
  | void | int =>
    obtain ⟨rfl, rfl⟩ := yields_pure_iff.mp run
    exact (Quiet.refl _).adds
  | ptr addrSpace =>
    simp only at run
    split at run
    · simp at run
    · obtain ⟨rfl, rfl⟩ := yields_pure_iff.mp run
      exact (Quiet.refl _).adds
  | float | array => exact adds_encodeTypeText run
  | func params ret vararg =>
    simp only [yields_bind_iff, yields_sized_iff, yields_pure_iff] at run
    obtain ⟨_, _, ⟨rfl, -, rfl⟩, positions, a, first, index, _, second, rfl, rfl⟩ := run
    exact ((quiet_mapM quiet_encodeTypeIndex first).trans (quiet_encodeTypeIndex second)).adds
  | struct shape =>
    simp only [yields_bind_iff, yields_dangling_iff] at run
    obtain ⟨layout?, _, ⟨laidOut, rfl⟩, run⟩ := run
    cases layout? with
    | none => exact adds_encodeTypeText run
    | some layout =>
      simp only [yields_bind_iff, yields_sized_iff, yields_pure_iff] at run
      obtain ⟨_, _, ⟨rfl, -, rfl⟩, positions, a, first, bits, _, second, rfl, rfl⟩ := run
      obtain ⟨rfl, -, -⟩ := encodeBitOffsets_spec second
      exact (quiet_mapM quiet_encodeTypeIndex first).adds

/-- The types section adds what is counted in it. -/
theorem adds_encodeTypes {records : List TypeRecord}
    (run : Yields (program.encodeTypes word) s records t) : s.Adds (countTypes records) [] t := by
  simp only [encodeTypes, yields_bind_iff, yields_get_iff, yields_sized_iff] at run
  obtain ⟨_, _, ⟨rfl, rfl⟩, _, _, ⟨rfl, -, rfl⟩, run⟩ := run
  refine (mapM_adds (F := fun _ => True) (fun _ => countTypes) (fun _ => []) ⟨rfl, rfl⟩
    (fun _ _ y ys => ⟨?_, rfl⟩) (fun run => ⟨adds_encodeTypeRecord run, trivial⟩) run).1
  rw [← List.singleton_append]
  simp only [countTypes, List.countP_append]
  rfl

/-! ## The whole stream -/

variable (program) in
/-- What a stream stands for among the counts.  Functions count for what is in them, and the globals
for nothing. -/
def countStream (stream : Stream) : EncodeStats :=
  program.countFunctions program.functionIds stream.functions + countConstants stream.constants
    + countTypes stream.types

theorem flatten_flatMap_blocks (records : List FunctionRecord) :
    (records.flatMap (·.blocks)).flatten = records.flatMap (·.insts) := by
  induction records with
  | nil => rfl
  | cons record records ih =>
    rw [List.flatMap_cons, List.flatMap_cons, List.flatten_append, ih]
    rfl

/-- Each counter, as a number that can be counted in the stream.  This is the form in which the
counters are stated. -/
theorem countStream_eq (stream : Stream) : program.countStream stream = {
    functions := stream.functions.length
    declarations := stream.functions.countP (·.blocks.isEmpty)
    blocks := stream.blocks.length
    instructions := stream.insts.length
    skippedInstructions :=
      ((program.functionIds.flatMap program.blocksOf).flatMap program.skippedOf).length
    unimplementedInstructions := stream.insts.countP (·.opcode == .unimplemented)
    unimplementedOperands := (countInsts stream.insts).unimplementedOperands
    unimplementedConstants := stream.constants.countP (·.payload.isEmpty)
    unimplementedTypes := stream.types.countP (·.kind == .unimplemented) } := by
  simp only [countStream, countFunctions, countHeads, countBlocks, countInsts, countConstants,
    countTypes, EncodeStats.add_def, flatten_flatMap_blocks, Nat.add_zero, Nat.zero_add]
  rfl

/-- **A stream** adds its sections.  The sections are written in this order, and what each adds is
summed up. -/
theorem adds_encodeStream (proper : ∀ id, program.types.shape id ≠ .ok (.int 0)) {stream : Stream}
    (run : Yields (program.encodeStream word) s stream t) :
    s.Adds (program.countStream stream) (stream.functions.map (·.event)) t
      ∧ ∀ inst ∈ stream.insts, inst.ShowsText := by
  simp only [encodeStream, yields_bind_iff, yields_sized_iff, yields_pure_iff] at run
  obtain ⟨_, _, ⟨rfl, -, rfl⟩, functions, a, first, constants, b, second, globals, c, third,
    types, _, fourth, rfl, rfl⟩ := run
  obtain ⟨adds, shows⟩ := mapM_adds program.countFunctions (List.map FunctionRecord.event)
    ⟨rfl, rfl⟩ (fun x xs y ys => ⟨countFunctions_append [x] xs [y] ys, rfl⟩) adds_encodeFunction
    first
  have constants := (adds_encodeConstants proper second).trans_quiet (quiet_encodeGlobals third)
  have all := (adds.trans constants).trans (adds_encodeTypes fourth)
  rw [List.append_nil, List.append_nil] at all
  refine ⟨all, fun inst mem => ?_⟩
  obtain ⟨function, listed, mem⟩ := List.mem_flatMap.mp mem
  exact shows function listed inst mem

/-! ## What was skipped -/

/-- A function has a record for each of its instructions that is emitted. -/
theorem DescribesFunction.length_insts {tables : EncodeState} {record : FunctionRecord}
    (h : program.DescribesFunction tables func record) :
    record.insts.length = ((program.blocksOf func).flatMap program.blockBody).length := by
  obtain ⟨function, found, -, -, blocks⟩ := h
  have lengths : record.blocks.map List.length = (program.body function).map List.length := by
    rw [map_eq_of_forall₂ blocks (f := fun entry => entry.1.length) fun described => by
      rw [← described.length_eq, List.length_zipIdx],
      ← List.zipIdx_map_fst 0 (program.body function), List.map_map, List.zipIdx_map_fst]
    rfl
  rw [FunctionRecord.insts, List.length_flatten, lengths, blocksOf_of_function found, body,
    List.length_flatMap, List.map_map]
  rfl

theorem length_insts_of_describes {tables : EncodeState} {ids : List FuncId}
    {records : List FunctionRecord}
    (described : List.Forall₂ (program.DescribesFunction tables) ids records) :
    (records.flatMap (·.insts)).length
      = ((ids.flatMap program.blocksOf).flatMap program.blockBody).length := by
  induction described with
  | nil => rfl
  | cons first _ ih =>
    rw [List.flatMap_cons, List.flatMap_cons, List.flatMap_append, List.length_append,
      List.length_append, ih, first.length_insts]

/-- The instructions of blocks are the ones that are emitted and the ones that are skipped.  Each
instruction is one or the other, by its kind. -/
theorem length_blockBody_add_skippedOf (ids : List BlockId) :
    (ids.flatMap program.blockBody).length + (ids.flatMap program.skippedOf).length
      = (ids.flatMap program.instsOf).length := by
  induction ids with
  | nil => rfl
  | cons id ids ih =>
    have body : program.blockBody id = (program.instsOf id).filter program.isEmitted := by
      rw [blockBody, instsOf]
      cases program.block id <;> rfl
    have here := (List.filter_append_perm program.isEmitted (program.instsOf id)).length_eq
    simp only [List.flatMap_cons, List.length_append, skippedOf, body] at here ih ⊢
    omega

end Program

/-- The text of an instruction is an operand that is not counted as one.  So the texts in the stream
are the escaped operands and the escaped instructions together. -/
theorem countInsts_operands {insts : List InstRecord} (shows : ∀ inst ∈ insts, inst.ShowsText) :
    (countInsts insts).unimplementedOperands + (countInsts insts).unimplementedInstructions
      = (insts.flatMap (·.operands)).countP (·.kind == .unimplemented) := by
  induction insts with
  | nil => rfl
  | cons inst insts ih =>
    obtain ⟨here, rest⟩ := List.forall_mem_cons.mp shows
    have others := ih rest
    rw [List.flatMap_cons, List.countP_append, ← others, ← List.singleton_append (l := insts),
      countInsts_append]
    by_cases escaped : inst.opcode = .unimplemented
    · obtain ⟨text, operands⟩ := here escaped
      have one : countInsts [inst] = { unimplementedInstructions := 1 } := by
        simp [countInsts, escaped]
      rw [one, operands]
      simp only [EncodeStats.add_def, List.countP_singleton, OperandRecord.kind,
        beq_self_eq_true, if_true]
      omega
    · rw [countInsts_singleton escaped]
      simp only [EncodeStats.add_def, countOperands]
      omega

/-! ## The statistics of a program

Three more numbers are the sizes of the tables, and one more event says that the module was encoded.
-/

open Program

variable {program : Program} {word : WordSize}

/-- What an encoded program has besides its bytes: the counts with which the stream was written, the
sizes of the tables, and one more event in the log.  The event is the one that says that the program
was encoded. -/
theorem stats_of_encode {module : EncodedModule} (h : program.encode word = .ok module) :
    ∃ stream state event, Yields (program.encodeStream word) .initial stream state
      ∧ module.bytes = stream.toBytes word
      ∧ module.stats = { state.stats with
          types := state.types.size
          constants := state.constants.size
          globals := state.globals.size }
      ∧ LogEvent.counts event = 0 ∧ functionEvents [event] = []
      ∧ (program.encodeLogged word).2 = state.log.toList ++ [event] := by
  have run : Yields (program.encodeModule word) .initial module (program.finalTables word) :=
    Prod.ext h rfl
  rw [Program.encodeModule] at run
  simp only [countTables, yields_bind_iff, yields_get_iff, yields_set_iff, yields_log_iff,
    yields_pure_iff] at run
  obtain ⟨stream, _, encoded, _, _, ⟨_, state, ⟨rfl, rfl⟩, _, _, rfl, rfl, rfl⟩, _, _, rfl, rfl,
    same⟩ := run
  have log := (congrArg (·.log.toList) same).trans Array.toList_push
  exact ⟨stream, state, _, encoded, rfl, rfl, rfl, rfl, log⟩

/-- **The statistics and the log agree with the stream.**  The numbers of functions, blocks,
instructions and entries are those of the stream; what was skipped and what was escaped is counted
one by one; and each escape has its event, by its message.  An integer type without bits would make
an entry of the constants look as if its value had been lost, so there is none. -/
theorem accounts_of_encode {module : EncodedModule} (built : program.Built)
    (proper : ∀ id, program.types.shape id ≠ .ok (.int 0))
    (h : program.encode word = .ok module) :
    ∃ stream, Stream.read? word module.bytes = some stream
      ∧ module.stats.Accounts program stream (program.encodeLogged word).2 := by
  obtain ⟨stream, state, event, encoded, bytes, stats, uncounted, other, log⟩ := stats_of_encode h
  obtain ⟨-, describes, fits⟩ := encodeStream_spec (.initial program) encoded
  obtain ⟨adds, shows⟩ := adds_encodeStream proper encoded
  have counts : state.stats = program.countStream stream := adds.stats.trans (zero_add _)
  -- every instruction of the program is in exactly one block, and a record or skipped
  have skipped : stream.insts.length
      + ((program.functionIds.flatMap program.blocksOf).flatMap program.skippedOf).length
      = (program.blocks.toList.flatMap (·.insts)).length := by
    rw [Stream.insts, length_insts_of_describes describes.functions,
      length_blockBody_add_skippedOf, built.length_insts]
  have operands := countInsts_operands shows
  refine ⟨stream, bytes ▸ Stream.read?_toBytes fits, ?_⟩
  rw [countStream_eq] at counts
  rw [stats, counts, log]
  exact {
    functions := rfl
    declarations := rfl
    blocks := rfl
    instructions := rfl
    skipped := skipped
    unimplementedInstructions := rfl
    unimplementedOperands := operands
    unimplementedConstants := rfl
    unimplementedTypes := rfl
    types := by rw [← describes.types.length_eq, Table.length_toList]
    constants := by rw [← describes.constants.length_eq, Table.length_toList]
    globals := by rw [← describes.globals.length_eq, Table.length_toList]
    -- the last event only reports the statistics, and counts for none of the four
    logged := fun entry mem => by
      have times := adds.logged entry mem
      rw [timesLogged, List.countP_append, ← timesLogged, ← timesLogged, times,
        timesLogged_singleton mem, uncounted, counter_zero mem, countStream_eq]
      simp only [unimplementedCounters, List.mem_cons, List.not_mem_nil, or_false] at mem
      rcases mem with rfl | rfl | rfl | rfl <;> exact Nat.zero_add _
    encoded := by
      rw [functionEvents, List.filter_append, ← functionEvents, ← functionEvents, adds.functions,
        other, List.append_nil]
      rfl
    total := (List.length_flatMap).symm }

/-- None of the counts is zero: a debug instruction was skipped, and something of each sort could
not be encoded. -/
theorem accounts_of_encode_counter :
    ∃ module, Program.counter.Built ∧ (∀ id, Program.counter.types.shape id ≠ .ok (.int 0))
      ∧ Program.counter.encode .eight = .ok module
      ∧ Stream.read? .eight module.bytes = some .counter
      ∧ module.stats = ⟨2, 1, 2, 9, 1, 1, 1, 1, 1, 9, 4, 1⟩
      ∧ module.stats.Accounts .counter .counter (Program.counter.encodeLogged .eight).2 := by
  obtain ⟨module, outcome, spells, stats⟩ := encode_counter
  have proper : ∀ id, Program.counter.types.shape id ≠ .ok (.int 0) := by
    have widths : ∀ shape ∈ Program.counter.types.shapes, shape ≠ .int 0 := by decide +kernel
    intro id found
    exact widths _ (Array.mem_of_getElem? (Types.shape_eq_ok_iff.mp found)) rfl
  obtain ⟨stream, read, accounts⟩ := accounts_of_encode built_counter proper outcome
  cases spells.symm.trans read
  exact ⟨module, built_counter, proper, outcome, spells, stats, accounts⟩

end IrStream
