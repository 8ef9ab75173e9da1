import IrStream.Proofs.Document.Pending
import IrStream.Proofs.Encode.Section

/-!
# Encoding undone by reading

If a program can be encoded, then reading the bytes uses them up and gives a stream that describes
the program.  The positions in that stream are to be read with the tables that encoding leaves,
`Program.finalTables`.

This is where the two halves of the development meet.

* **Bytes and records.**  `Stream/RoundTrip.lean` knows nothing of programs.  Its statement is that
  the bytes of a stream read back as the stream, if every number and every text in it fits its
  field.
* **Records and programs.**  `Encode/Section.lean` knows nothing of bytes.  Its statement is that
  the records which encoding answers describe the program, and that they fit their fields.

So `stream_of_encode` has a short proof, and everything that is shown of encoded programs elsewhere
— which positions resolve, what the statistics count, which operand a pair of numbers means — is
shown of the *stream* and not of bytes.  `describes_of_encode` is the form in which those modules
use it.

What `encode` returns besides the bytes comes out of the same run: the names of the globals are
those of the final table, and the statistics and the log are those of the final state
(`encodeStream_of_encode`).
-/

set_option autoImplicit false

namespace IrStream

open Encoding EncodeState

variable {program : Program} {word : WordSize}

/-- The state that encoding a program leaves. -/
def Program.finalTables (program : Program) (word : WordSize) : EncodeState :=
  ((program.encodeModule word).run.run .initial).2

/-- A description depends on the tables alone, not on counts and log. -/
theorem Stream.Describes.of_sameTables {stream : Stream} {s t : EncodeState}
    (same : s.SameTables t) (h : stream.Describes program word s) :
    stream.Describes program word t where
  header := h.header
  functions := h.functions.imp fun _ _ => .mono same.grows
  constants := by
    rw [same.constants]
    exact h.constants.imp fun _ _ => .mono same.grows
  globals := by
    rw [same.globals]
    exact h.globals
  types := by
    rw [same.types]
    exact h.types.imp fun _ _ => .mono same.grows

theorem sameTables_countTables {s t : EncodeState} {stats : EncodeStats}
    (run : Yields Program.countTables s stats t) : s.SameTables t := by
  simp only [Program.countTables, yields_bind_iff, yields_get_iff, yields_set_iff,
    yields_pure_iff] at run
  obtain ⟨_, _, ⟨rfl, rfl⟩, _, _, rfl, rfl, rfl⟩ := run
  exact ⟨rfl, rfl, rfl⟩

/-- What an encoded program is: the bytes of a stream and the names of its globals, and the tables
that encoding the stream leaves. -/
theorem encodeStream_of_encode {module : EncodedModule} (h : program.encode word = .ok module) :
    ∃ stream state, Yields (program.encodeStream word) .initial stream state
      ∧ module.bytes = stream.toBytes word ∧ module.globals = stream.globals.map (·.name)
      ∧ state.SameTables (program.finalTables word) := by
  have run : Yields (program.encodeModule word) .initial module (program.finalTables word) :=
    Prod.ext h rfl
  rw [Program.encodeModule] at run
  simp only [yields_bind_iff, yields_pure_iff] at run
  obtain ⟨stream, state, encoded, stats, _, counted, _, _, logged, rfl, same⟩ := run
  refine ⟨stream, state, encoded, rfl, rfl, ?_⟩
  rw [same]
  exact (sameTables_countTables counted).trans (sameTables_log logged)

/-- An encoded program reads back as a stream that describes it, and the positions in the stream
are unambiguous. -/
theorem describes_of_encode {module : EncodedModule} (h : program.encode word = .ok module) :
    ∃ stream, Stream.read? word module.bytes = some stream
      ∧ stream.Describes program word (program.finalTables word)
      ∧ Sound program (program.finalTables word) := by
  obtain ⟨stream, state, encoded, bytes, -, same⟩ := encodeStream_of_encode h
  obtain ⟨sound, describes, fits⟩ := Program.encodeStream_spec (.initial program) encoded
  refine ⟨stream, ?_, describes.of_sameTables same, same.advances.sound sound⟩
  rw [bytes]
  exact Stream.read?_toBytes fits

theorem encode_addOne : ∃ module, Program.addOne.encode .eight = .ok module := by
  have encodes : (Program.addOne.encode .eight).toOption.any (fun _ => true) = true := by
    decide +kernel
  obtain ⟨module, outcome, -⟩ := exists_of_any_toOption encodes
  exact ⟨module, outcome⟩

/-! ## A program with every kind of operand

The program that such results are applied to here has all that a stream can say, and all that it
cannot.  Every kind of operand and every kind of type occurs in its stream, an offset is folded, a
debug instruction is left out, and an instruction, an operand, a constant and a type are in the
stream as text only, or without their value. -/

/-- A document with a global, a function without a body and one with two blocks. -/
def Document.counter : Document where
  layout := none
  structs := [("Cell", some ⟨[.text "i32", .text "double"], false⟩)]
  globals := [⟨"total", .text "i32", true, some (.text "i32 7")⟩]
  functions := [
    ⟨"step", [⟨none, .text "i32"⟩], some (.text "i32"), false, []⟩,
    ⟨"count", [⟨some "more", .text "i1"⟩], some (.text "i32"), false, [
      ⟨some "entry", [
        ⟨some "cell", "alloca", none, [], some (.text "%Cell"), none, none⟩,
        ⟨some "mean", "getelementptr", none, [.text "%cell", .text "i32 0", .text "i32 1"], none,
          some (.text "%Cell"), none⟩,
        ⟨none, "store", none, [.text "double 0.5", .text "%mean"], none, none, none⟩,
        ⟨none, "dbg.value", none, [.text "%cell"], none, none, none⟩,
        ⟨some "old", "load", some (.text "i32"), [.text "@total", .text "!range"], none, none,
          none⟩,
        ⟨some "new", "call", some (.text "i32"), [.text "%old", .text "@step"], none, none, none⟩,
        ⟨some "kept", "freeze", some (.text "i32"), [.text "%new"], none, none, none⟩,
        ⟨some "same", "icmp", none, [.text "%kept", .text "%old"], none, none, some "eq"⟩,
        ⟨none, "br", none, [.text "%more", .text "label %done", .text "label %entry"], none, none,
          none⟩]⟩,
      ⟨some "done", [⟨none, "ret", none, [.text "%kept"], none, none, none⟩]⟩]⟩]

/-- The program that the document stands for. -/
def Program.counter : Program :=
  Document.counter.toProgram.toOption.getD (.empty .standard)

/-- What its bytes say. -/
def Stream.counter : Stream where
  header := .current
  functions := [
    ⟨"step", 0, []⟩,
    ⟨"count", 2, [
      [⟨4, .alloca, [.type 5, .constant 0]⟩,
        ⟨4, .ptrAdd, [.localVariable 0 0, .constant 1]⟩,
        ⟨7, .store, [.constant 2, .localVariable 0 1]⟩,
        ⟨1, .load, [.global 0, .unimplemented "range"]⟩,
        ⟨1, .call, [.function 0, .localVariable 0 3]⟩,
        ⟨1, .unimplemented, [.unimplemented "%kept = freeze i32 %new"]⟩,
        ⟨3, .icmp, [.localVariable 0 5, .predicate .equal, .localVariable 0 3]⟩,
        ⟨7, .condBr, [.arg 0, .block 0, .block 1]⟩],
      [⟨7, .ret, [.localVariable 0 5]⟩]]⟩]
  constants := [⟨1, [1, 0, 0, 0]⟩, ⟨8, [8, 0, 0, 0, 0, 0, 0, 0]⟩, ⟨6, []⟩, ⟨1, [7, 0, 0, 0]⟩]
  globals := [⟨true, "total"⟩]
  types := [.function [1] 1 false, .integer 32, .function [3] 1 false, .integer 1, .pointer,
    .struct [1, 6] [0, 64], .unimplemented "double", .void, .integer 64]

theorem toProgram_counter : Document.counter.toProgram = .ok .counter := by
  have loads : (Document.counter.toProgram.toOption.any fun _ => true) = true := by decide +kernel
  obtain ⟨program, loaded, -⟩ := exists_of_any_toOption loads
  rw [Program.counter, loaded]
  rfl

theorem built_counter : Program.counter.Built :=
  (named_of_toProgram toProgram_counter).1.built

/-- The program can be encoded, and this is what is counted on the way. -/
theorem encode_counter : ∃ module, Program.counter.encode .eight = .ok module
    ∧ Stream.read? .eight module.bytes = some .counter
    ∧ module.stats = {
        functions := 2, declarations := 1, blocks := 2, instructions := 9, skippedInstructions := 1
        unimplementedInstructions := 1, unimplementedOperands := 1, unimplementedConstants := 1
        unimplementedTypes := 1, types := 9, constants := 4, globals := 1 } := by
  have encodes : ((Program.counter.encode .eight).toOption.any fun module =>
      decide (Stream.read? .eight module.bytes = some .counter
        ∧ module.stats = ⟨2, 1, 2, 9, 1, 1, 1, 1, 1, 9, 4, 1⟩)) = true := by
    decide +kernel
  obtain ⟨module, outcome, holds⟩ := exists_of_any_toOption encodes
  exact ⟨module, outcome, of_decide_eq_true holds⟩

end IrStream
