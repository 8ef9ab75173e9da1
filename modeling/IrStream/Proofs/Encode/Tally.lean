import IrStream.Proofs.Encode.Basic
import IrStream.Proofs.Program.Listed
import Mathlib.Algebra.Group.Basic

/-!
# What encoding counts and logs

Counts, log and records are made by separate statements.  `EncodeState.Adds` is what ties them
together: it says what a step adds to the counts and to the log, and each step of encoding is given
the additions that can be read off the records it answers (`countOperands`, `countInsts`,
`Program.countBlocks`, `Program.countFunctions` and their like).  Counts add up entry by entry, so a
row of steps adds what is read off the row of records (`mapM_adds`).

The events of the log are only counted by message, and each message of something unimplemented has a
counter of its own (`unimplementedCounters`).  Events of encoded functions are kept as they are.

Two choices keep this short.

* **Counts are a commutative monoid.**  The statistics are a record of numbers, and adding records
  is adding field by field.  What a step adds can then be written as one record, most of whose
  fields are zero, and what a row adds is a sum.  The library's lemmas on commutative monoids do
  the rest.
* **The log is not a list of what happened in which order.**  Of the log only the number of events
  of each message is kept, and the list of the events of functions.  Otherwise each lemma would have
  to say in which place of a record its events lie.

That logging and counting never come apart is one clause of `Adds`: for each message that reports
something unimplemented, as many events are added as its counter grows by.
-/

set_option autoImplicit false

namespace IrStream

open Encoding

/-! ## Adding counts -/

attribute [ext] EncodeStats

namespace EncodeStats

instance : Zero EncodeStats := ⟨{}⟩

instance : Add EncodeStats where
  add a b := {
    functions := a.functions + b.functions
    declarations := a.declarations + b.declarations
    blocks := a.blocks + b.blocks
    instructions := a.instructions + b.instructions
    skippedInstructions := a.skippedInstructions + b.skippedInstructions
    unimplementedInstructions := a.unimplementedInstructions + b.unimplementedInstructions
    unimplementedOperands := a.unimplementedOperands + b.unimplementedOperands
    unimplementedConstants := a.unimplementedConstants + b.unimplementedConstants
    unimplementedTypes := a.unimplementedTypes + b.unimplementedTypes
    types := a.types + b.types
    constants := a.constants + b.constants
    globals := a.globals + b.globals }

theorem zero_def : (0 : EncodeStats) = {} := rfl

/-- Sums are taken counter by counter.  So counting in parts and adding up comes to the same as
counting everything. -/
theorem add_def (a b : EncodeStats) : a + b = {
    functions := a.functions + b.functions
    declarations := a.declarations + b.declarations
    blocks := a.blocks + b.blocks
    instructions := a.instructions + b.instructions
    skippedInstructions := a.skippedInstructions + b.skippedInstructions
    unimplementedInstructions := a.unimplementedInstructions + b.unimplementedInstructions
    unimplementedOperands := a.unimplementedOperands + b.unimplementedOperands
    unimplementedConstants := a.unimplementedConstants + b.unimplementedConstants
    unimplementedTypes := a.unimplementedTypes + b.unimplementedTypes
    types := a.types + b.types
    constants := a.constants + b.constants
    globals := a.globals + b.globals } := rfl

instance : AddCommMonoid EncodeStats where
  add_assoc a b c := by simp only [add_def, Nat.add_assoc]
  zero_add a := by simp only [add_def, zero_def, Nat.zero_add]
  add_zero a := by simp only [add_def, zero_def, Nat.add_zero]
  add_comm a b := by simp only [add_def, Nat.add_comm]
  nsmul := nsmulRec

end EncodeStats

/-- The messages of what could not be encoded, each with its counter.  These are the counters that a
log event goes with; the others are incremented alone. -/
def unimplementedCounters : List (String × (EncodeStats → Nat)) :=
  [("unimplemented operand", (·.unimplementedOperands)),
    ("unimplemented instruction", (·.unimplementedInstructions)),
    ("unimplemented constant", (·.unimplementedConstants)),
    ("unimplemented type", (·.unimplementedTypes))]

/-- Each counter is additive.  This is what lets a log and a count be compared step by step. -/
theorem counter_add {entry : String × (EncodeStats → Nat)} (mem : entry ∈ unimplementedCounters)
    (a b : EncodeStats) : entry.2 (a + b) = entry.2 a + entry.2 b := by
  simp only [unimplementedCounters, List.mem_cons, List.not_mem_nil, or_false] at mem
  rcases mem with rfl | rfl | rfl | rfl <;> rfl

theorem counter_zero {entry : String × (EncodeStats → Nat)} (mem : entry ∈ unimplementedCounters) :
    entry.2 0 = 0 := by
  simp only [unimplementedCounters, List.mem_cons, List.not_mem_nil, or_false] at mem
  rcases mem with rfl | rfl | rfl | rfl <;> rfl

/-! ## Reading a log -/

/-- How often a message was logged.  Messages are compared as texts, since that is what a reader of
the log has. -/
def timesLogged (message : String) (log : List LogEvent) : Nat :=
  log.countP (·.message == message)

/-- The events of encoded functions.  There is one for each function, declared or defined, when its
record is done. -/
def functionEvents (log : List LogEvent) : List LogEvent :=
  log.filter (·.message == "encoded function")

/-- What an event stands for among the counts.  An event that reports something encoded stands for
nothing. -/
def LogEvent.counts : LogEvent → EncodeStats
  | unimplementedOperand .. => { unimplementedOperands := 1 }
  | unimplementedInstruction .. => { unimplementedInstructions := 1 }
  | unimplementedConstant _ => { unimplementedConstants := 1 }
  | unimplementedType _ => { unimplementedTypes := 1 }
  | encodedFunction .. => 0
  | encodedProgram .. => 0

theorem timesLogged_singleton {entry : String × (EncodeStats → Nat)}
    (mem : entry ∈ unimplementedCounters) (event : LogEvent) :
    timesLogged entry.1 [event] = entry.2 event.counts := by
  simp only [unimplementedCounters, List.mem_cons, List.not_mem_nil, or_false] at mem
  rcases mem with rfl | rfl | rfl | rfl <;> cases event <;> rfl

/-! ## Steps -/

namespace EncodeState

variable {s t u : EncodeState}

/-- From `s` to `t` the counts `counts` and the events of encoded functions `events` are added, and
whatever is counted of them as unimplemented is logged. -/
structure Adds (s : EncodeState) (counts : EncodeStats) (events : List LogEvent)
    (t : EncodeState) : Prop where
  /-- Counters are added one by one. -/
  stats : t.stats = s.stats + counts
  /-- A feature is logged as often as it is counted. -/
  logged : ∀ entry ∈ unimplementedCounters,
    timesLogged entry.1 t.log.toList = timesLogged entry.1 s.log.toList + entry.2 counts
  /-- Events of encoded functions stand in order. -/
  functions : functionEvents t.log.toList = functionEvents s.log.toList ++ events

/-- Counts and log are the same. -/
structure Quiet (s t : EncodeState) : Prop where
  stats : t.stats = s.stats
  log : t.log = s.log

theorem Quiet.refl (s : EncodeState) : s.Quiet s :=
  ⟨rfl, rfl⟩

theorem Quiet.trans (first : s.Quiet t) (second : t.Quiet u) : s.Quiet u :=
  ⟨second.stats.trans first.stats, second.log.trans first.log⟩

theorem Quiet.adds (quiet : s.Quiet t) : s.Adds 0 [] t where
  stats := by rw [quiet.stats, add_zero]
  logged entry mem := by rw [quiet.log, counter_zero mem, Nat.add_zero]
  functions := by rw [quiet.log, List.append_nil]

/-- What two steps add is the sum of what they add.  Events stay in order. -/
theorem Adds.trans {counts more : EncodeStats} {events others : List LogEvent}
    (first : s.Adds counts events t) (second : t.Adds more others u) :
    s.Adds (counts + more) (events ++ others) u where
  stats := by rw [second.stats, first.stats, add_assoc]
  logged entry mem := by
    rw [second.logged entry mem, first.logged entry mem, counter_add mem, Nat.add_assoc]
  functions := by rw [second.functions, first.functions, List.append_assoc]

theorem Quiet.trans_adds {counts : EncodeStats} {events : List LogEvent} (first : s.Quiet t)
    (second : t.Adds counts events u) : s.Adds counts events u := by
  simpa only [zero_add, List.nil_append] using first.adds.trans second

theorem Adds.trans_quiet {counts : EncodeStats} {events : List LogEvent}
    (first : s.Adds counts events t) (second : t.Quiet u) : s.Adds counts events u := by
  simpa only [add_zero, List.append_nil] using first.trans second.adds

end EncodeState

namespace Encoding

open EncodeState

variable {s t u : EncodeState} {program : Program} {word : WordSize}

theorem adds_log {event : LogEvent} {done : Unit} (run : Yields (log event) s done t) :
    t.stats = s.stats
      ∧ (∀ message, timesLogged message t.log.toList
        = timesLogged message s.log.toList + timesLogged message [event])
      ∧ functionEvents t.log.toList = functionEvents s.log.toList ++ functionEvents [event] := by
  rw [yields_log_iff.mp run]
  simp [timesLogged, functionEvents]

/-- What is logged of something encoded is not counted.  If it is the event of a function, that
event is added. -/
theorem adds_log_of_zero {event : LogEvent} {done : Unit} (uncounted : event.counts = 0)
    (run : Yields (log event) s done t) : s.Adds 0 (functionEvents [event]) t := by
  obtain ⟨stats, times, functions⟩ := adds_log run
  refine ⟨by rw [stats, add_zero], fun entry mem => ?_, functions⟩
  rw [times, timesLogged_singleton mem, uncounted]

/-- A counter without a message may be incremented alone.  Functions, blocks and instructions are
counted so. -/
theorem adds_count {step : EncodeStats → EncodeStats} {counts : EncodeStats} {done : Unit}
    (unlogged : ∀ entry ∈ unimplementedCounters, entry.2 counts = 0)
    (adds : ∀ stats, step stats = stats + counts) (run : Yields (count step) s done t) :
    s.Adds counts [] t := by
  rw [yields_count_iff.mp run]
  exact ⟨adds _, fun entry mem => by rw [unlogged entry mem, Nat.add_zero],
    (List.append_nil _).symm⟩

/-- Something unimplemented is logged and counted.  The encoder does it in this order, in one place
for each sort of thing. -/
theorem adds_note {event : LogEvent} {step : EncodeStats → EncodeStats} {done done' : Unit}
    (unimplemented : functionEvents [event] = [])
    (adds : ∀ stats, step stats = stats + event.counts) (logged : Yields (log event) s done t)
    (counted : Yields (count step) t done' u) : s.Adds event.counts [] u := by
  obtain ⟨stats, times, functions⟩ := adds_log logged
  rw [yields_count_iff.mp counted]
  refine ⟨(adds t.stats).trans (by rw [stats]), fun entry mem => ?_, ?_⟩
  · rw [← timesLogged_singleton mem event]
    exact times entry.1
  · rw [← unimplemented]
    exact functions

theorem quiet_registerConstant {constant : Constant} {index : Nat}
    (run : Yields (registerConstant constant) s index t) : s.Quiet t := by
  obtain ⟨-, rfl⟩ := yields_registerConstant_iff.mp run
  exact ⟨rfl, rfl⟩

theorem quiet_registerType {id : TypeId} {index : Nat}
    (run : Yields (registerType program id) s index t) : s.Quiet t := by
  obtain ⟨types, -, rfl⟩ := yields_registerType_iff.mp run
  exact ⟨rfl, rfl⟩

theorem quiet_registerGlobal {id : GlobalId} {index : Nat}
    (run : Yields (registerGlobal program id) s index t) : s.Quiet t := by
  obtain ⟨globals, constants, -, rfl⟩ := yields_registerGlobal_iff.mp run
  exact ⟨rfl, rfl⟩

/-- **A row of steps** adds what is read off the row of records, if that adds up.  The counts of a
row have to be those of its first entry and of the rest, which holds of every count that is used
here. -/
theorem mapM_adds {α β : Type} {step : α → Encoding β} {F : β → Prop}
    (counts : List α → List β → EncodeStats) (events : List β → List LogEvent)
    (nil : counts [] [] = 0 ∧ events [] = [])
    (cons : ∀ x xs y ys, counts (x :: xs) (y :: ys) = counts [x] [y] + counts xs ys
      ∧ events (y :: ys) = events [y] ++ events ys)
    (each : ∀ {x y a b}, Yields (step x) a y b → a.Adds (counts [x] [y]) (events [y]) b ∧ F y)
    {list : List α} {values : List β} (run : Yields (list.mapM step) s values t) :
    s.Adds (counts list values) (events values) t ∧ ∀ y ∈ values, F y := by
  induction list generalizing s values with
  | nil =>
    obtain ⟨rfl, rfl⟩ := yields_mapM_nil_iff.mp run
    rw [nil.1, nil.2]
    exact ⟨(Quiet.refl t).adds, by simp⟩
  | cons x list ih =>
    obtain ⟨y, a, more, one, others, rfl⟩ := yields_mapM_cons_iff.mp run
    obtain ⟨first, here⟩ := each one
    obtain ⟨rest, there⟩ := ih others
    rw [(cons x list y more).1, (cons x list y more).2]
    exact ⟨first.trans rest, List.forall_mem_cons.mpr ⟨here, there⟩⟩

end Encoding

/-! ## Instructions

Operands are counted when they are text.  An instruction that is shown as text has its text for an
operand, and that one is counted as an instruction instead. -/

/-- What operand records stand for among the counts.  An operand that is shown as text is one that
could not be encoded. -/
def countOperands (records : List OperandRecord) : EncodeStats where
  unimplementedOperands := records.countP (·.kind == .unimplemented)

/-- What instruction records stand for among the counts.  The operand of an instruction that is
shown as text is not counted besides the instruction.  The number of instructions is not among them:
blocks count theirs. -/
def countInsts (records : List InstRecord) : EncodeStats where
  unimplementedInstructions := records.countP (·.opcode == .unimplemented)
  unimplementedOperands := ((records.filter (·.opcode != .unimplemented)).flatMap
    (·.operands)).countP (·.kind == .unimplemented)

/-- An instruction without an opcode of its own has its text as its one operand.  Its counter is the
one of instructions, so the text must not be counted as an operand too. -/
def InstRecord.ShowsText (record : InstRecord) : Prop :=
  record.opcode = .unimplemented → ∃ text, record.operands = [.unimplemented text]

theorem countOperands_append (some more : List OperandRecord) :
    countOperands (some ++ more) = countOperands some + countOperands more := by
  simp [countOperands, EncodeStats.add_def]

theorem countInsts_append (some more : List InstRecord) :
    countInsts (some ++ more) = countInsts some + countInsts more := by
  simp [countInsts, EncodeStats.add_def]

theorem countInsts_singleton {record : InstRecord} (plain : record.opcode ≠ .unimplemented) :
    countInsts [record] = countOperands record.operands := by
  simp [countInsts, countOperands, plain]

namespace Program

open EncodeState

variable {program : Program} {word : WordSize} {scope : FunctionScope} {s t : EncodeState}

/-- A step that answers operand records adds their counts.  Instructions differ in how they make
their operands, and this is all that is asked of each way. -/
def CountsOperands (step : Encoding (List OperandRecord)) : Prop :=
  ∀ {s t records}, Yields step s records t → s.Adds (countOperands records) [] t

theorem quiet_encodeConstant {constant : Constant} {record : OperandRecord}
    (run : Yields (encodeConstant word constant) s record t) :
    s.Quiet t ∧ ∃ index, record = .constant index := by
  simp only [encodeConstant, yields_bind_iff, yields_sized_iff, yields_pure_iff] at run
  obtain ⟨_, _, registered, _, _, ⟨rfl, -, rfl⟩, rfl, rfl⟩ := run
  exact ⟨quiet_registerConstant registered, _, rfl⟩

theorem quiet_encodeTypeOperand {type : TypeId} {record : OperandRecord}
    (run : Yields (program.encodeTypeOperand word type) s record t) :
    s.Quiet t ∧ ∃ index, record = .type index := by
  simp only [encodeTypeOperand, yields_bind_iff, yields_sized_iff, yields_pure_iff] at run
  obtain ⟨_, _, registered, _, _, ⟨rfl, -, rfl⟩, rfl, rfl⟩ := run
  exact ⟨quiet_registerType registered, _, rfl⟩

/-- **An operand** is counted if it is a text.  Everything else is a position in a table or a
number, and registering counts nothing. -/
theorem adds_encodeOperand {operand : Operand} {record : OperandRecord}
    (run : Yields (program.encodeOperand word scope operand) s record t) :
    s.Adds (countOperands [record]) [] t := by
  cases operand with
  | const id =>
    simp only [encodeOperand, yields_bind_iff, yields_dangling_iff] at run
    obtain ⟨constant, _, ⟨found, rfl⟩, run⟩ := run
    split at run
    · simp only [yields_bind_iff, yields_sized_iff, yields_pure_iff] at run
      obtain ⟨_, _, registered, _, _, ⟨rfl, -, rfl⟩, rfl, rfl⟩ := run
      exact (quiet_registerGlobal registered).adds
    · split at run
      · simp only [yields_bind_iff, yields_sized_iff, yields_pure_iff] at run
        obtain ⟨_, _, ⟨rfl, -, rfl⟩, rfl, rfl⟩ := run
        exact (Quiet.refl _).adds
      · simp at run
    · obtain ⟨quiet, index, rfl⟩ := quiet_encodeConstant run
      exact quiet.adds
  | arg id =>
    simp only [encodeOperand, yields_bind_iff, yields_dangling_iff] at run
    obtain ⟨arg, _, ⟨found, rfl⟩, run⟩ := run
    split at run
    · simp [undefinedValue_fails] at run
    · simp only [yields_bind_iff, yields_sized_iff, yields_pure_iff] at run
      obtain ⟨_, _, ⟨rfl, -, rfl⟩, rfl, rfl⟩ := run
      exact (Quiet.refl _).adds
  | inst id =>
    simp only [encodeOperand] at run
    split at run
    · exact (undefinedValue_fails run).elim
    · simp only [yields_bind_iff, yields_sized_iff, yields_pure_iff] at run
      obtain ⟨_, _, ⟨rfl, -, rfl⟩, _, _, ⟨rfl, -, rfl⟩, rfl, rfl⟩ := run
      exact (Quiet.refl _).adds
  | block id =>
    simp only [encodeOperand] at run
    split at run
    · simp only [yields_bind_iff, yields_sized_iff, yields_pure_iff] at run
      obtain ⟨_, _, ⟨rfl, -, rfl⟩, rfl, rfl⟩ := run
      exact (Quiet.refl _).adds
    · simp at run
  | text text =>
    simp only [encodeOperand, yields_bind_iff] at run
    obtain ⟨_, _, logged, _, _, counted, run⟩ := run
    obtain ⟨rfl, rfl, -⟩ := encodeText_spec word run
    exact adds_note rfl (fun _ => rfl) logged counted

theorem countsOperands_mapM (operands : List Operand) :
    CountsOperands (operands.mapM (program.encodeOperand word scope)) := by
  intro s t records run
  exact (mapM_adds (F := fun _ => True) (fun _ => countOperands) (fun _ => []) ⟨rfl, rfl⟩
    (fun _ _ y ys => ⟨countOperands_append [y] ys, rfl⟩)
    (fun run => ⟨adds_encodeOperand run, trivial⟩) run).1

/-- A record adds what its operands add, and it is not counted itself: its block counts it. -/
theorem adds_encodeRecord {type : TypeId} {opcode : Opcode} {count : Nat}
    {operands : Encoding (List OperandRecord)} {record : InstRecord}
    (counts : CountsOperands operands)
    (run : Yields (program.encodeRecord word type opcode count operands) s record t) :
    s.Adds (countOperands record.operands) [] t ∧ record.opcode = opcode := by
  simp only [encodeRecord, yields_bind_iff, yields_sized_iff] at run
  obtain ⟨index, a, registered, _, _, ⟨rfl, -, rfl⟩, run⟩ := run
  split at run
  · simp at run
  · simp only [yields_bind_iff, yields_pure_iff] at run
    obtain ⟨records, _, written, rfl, rfl⟩ := run
    exact ⟨(quiet_registerType registered).trans_adds (counts written), rfl⟩

/-- What is written with an opcode of its own counts by its operands.  All opcodes but one are such.
-/
theorem adds_encodeRecord_of_ne {type : TypeId} {opcode : Opcode} {count : Nat}
    {operands : Encoding (List OperandRecord)} {record : InstRecord}
    (plain : opcode ≠ .unimplemented) (counts : CountsOperands operands)
    (run : Yields (program.encodeRecord word type opcode count operands) s record t) :
    s.Adds (countInsts [record]) [] t ∧ record.ShowsText := by
  obtain ⟨adds, rfl⟩ := adds_encodeRecord counts run
  rw [countInsts_singleton plain]
  exact ⟨adds, fun same => absurd same plain⟩

theorem adds_encodeOperands {type : TypeId} {opcode : Opcode} {operands : List Operand}
    {record : InstRecord} (plain : opcode ≠ .unimplemented)
    (run : Yields (program.encodeOperands word scope type opcode operands) s record t) :
    s.Adds (countInsts [record]) [] t ∧ record.ShowsText :=
  adds_encodeRecord_of_ne plain (countsOperands_mapM operands) run

/-- The text of an instruction is counted with the instruction, before it is written. -/
theorem adds_encodeUnimplemented {id : InstId} {inst : Inst} {record : InstRecord}
    (run : Yields (program.encodeUnimplemented word scope id inst) s record t) :
    s.Adds (countInsts [record]) [] t ∧ record.ShowsText := by
  simp only [encodeUnimplemented, encodeRecord, yields_bind_iff, yields_dangling_iff,
    yields_sized_iff] at run
  obtain ⟨text, _, ⟨-, rfl⟩, _, a, logged, _, b, counted, _, c, registered, _, _, ⟨rfl, -, rfl⟩,
    run⟩ := run
  rw [if_neg (by decide)] at run
  simp only [yields_bind_iff, yields_pure_iff] at run
  obtain ⟨_, _, ⟨_, _, written, rfl, rfl⟩, rfl, rfl⟩ := run
  obtain ⟨rfl, rfl, -⟩ := encodeText_spec word written
  exact ⟨(adds_note rfl (fun _ => rfl) logged counted).trans_quiet (quiet_registerType registered),
    fun _ => ⟨text, rfl⟩⟩

/-- The record has a type and a count, of which the count is an operand like any other. -/
theorem adds_encodeAlloca {id : InstId} {inst : Inst} {allocated : TypeId} {record : InstRecord}
    (run : Yields (program.encodeAlloca word scope id inst allocated) s record t) :
    s.Adds (countInsts [record]) [] t ∧ record.ShowsText := by
  simp only [encodeAlloca, yields_bind_iff, yields_dangling_iff] at run
  obtain ⟨count?, _, ⟨-, rfl⟩, run⟩ := run
  cases count? with
  | none => simp at run
  | some count =>
    refine adds_encodeRecord_of_ne (by decide) (fun {s t records} run => ?_) run
    simp only [yields_bind_iff, yields_pure_iff] at run
    obtain ⟨_, a, first, operand, _, second, rfl, rfl⟩ := run
    obtain ⟨quiet, index, rfl⟩ := quiet_encodeTypeOperand first
    exact quiet.trans_adds (adds_encodeOperand second)

/-- The offset is registered as a constant, which is not counted here. -/
theorem adds_encodePtrAdd {id : InstId} {inst : Inst} {source : TypeId} {base : Operand}
    {indices : List Operand} {record : InstRecord}
    (run : Yields (program.encodePtrAdd word scope id inst source base indices) s record t) :
    s.Adds (countInsts [record]) [] t ∧ record.ShowsText := by
  simp only [encodePtrAdd, yields_bind_iff] at run
  obtain ⟨offset, _, folded, run⟩ := run
  obtain ⟨rfl, -⟩ := encodeOffset_spec folded
  refine adds_encodeRecord_of_ne (by decide) (fun {s t records} run => ?_) run
  simp only [yields_bind_iff, yields_pure_iff] at run
  obtain ⟨operand, a, first, _, _, second, rfl, rfl⟩ := run
  obtain ⟨quiet, index, rfl⟩ := quiet_encodeConstant second
  rw [← List.singleton_append, countOperands_append]
  exact (adds_encodeOperand first).trans quiet.adds

/-- The predicate is a field of the record and counts for nothing. -/
theorem adds_encodeComparison {id : InstId} {inst : Inst} {comparison : Comparison}
    {left right : Operand} {record : InstRecord}
    (run : Yields (program.encodeComparison word scope id inst comparison left right)
      s record t) :
    s.Adds (countInsts [record]) [] t ∧ record.ShowsText := by
  simp only [encodeComparison] at run
  split at run
  · simp at run
  · refine adds_encodeRecord_of_ne (by decide) (fun {s t records} run => ?_) run
    simp only [yields_bind_iff, yields_pure_iff] at run
    obtain ⟨first, a, one, second, _, two, rfl, rfl⟩ := run
    have adds := (adds_encodeOperand one).trans (adds_encodeOperand two)
    rwa [← countOperands_append] at adds

/-- **An instruction** is counted once, as itself or by its operands.  By the recipes of the
encoder: each of them is one of the cases above. -/
theorem adds_encodeInst {id : InstId} {record : InstRecord}
    (run : Yields (program.encodeInst word scope id) s record t) :
    s.Adds (countInsts [record]) [] t ∧ record.ShowsText := by
  simp only [encodeInst, yields_bind_iff, yields_dangling_iff] at run
  obtain ⟨inst, _, ⟨-, rfl⟩, run⟩ := run
  split at run
  · exact adds_encodeOperands (by decide) run
  · exact adds_encodeOperands (by decide) run
  · exact adds_encodeOperands (by decide) run
  · exact adds_encodeOperands (by decide) run
  · next op _ => exact adds_encodeOperands (by cases op <;> decide) run
  · exact adds_encodeAlloca run
  · exact adds_encodeOperands (by decide) run
  · exact adds_encodeOperands (by decide) run
  · split at run
    · exact adds_encodeOperands (by decide) run
    · exact adds_encodeUnimplemented run
  · exact adds_encodePtrAdd run
  · exact adds_encodeComparison run
  · exact adds_encodeUnimplemented run

end Program

end IrStream
