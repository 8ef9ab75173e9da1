import IrStream.Document.Loading
import IrStream.Proofs.Encode.Basic
import IrStream.Proofs.Report.Assembly

/-!
# The lines of the table of globals

`EncodedModule.assembly` writes a line for each global, in the order in which the stream counts
them.  It is one line of the text only if the name has no line end: between quotes a backslash and a
quote are escaped, a line end is not.  So the text has as many lines more as there are line ends in
names, and the lines between the label of the table and the next `.globl` are those of the globals
exactly if there is none (`EncodedModule.TableLines`).

`Report/Assembly.lean` is about a reader that knows of quotes, and for it nothing is lost.  This
module is about one that does not: it takes a text line by line, as most tools do.  The two disagree
about one character, and what is shown here is how much that matters.  For every list of names the
number of lines is known (`length_lines_assembly`), and whether the table is read as it was meant is
equivalent to a condition on the names.

`pointerTable_of_encode` adds what the names are: those of the globals that the stream counts, in
the order of its section.

## Statements

* `length_lines_assembly`: **the text has a line more** for each line end in a name.
* `tableOf_lines_iff`: the table is found line by line if and only if no name has a line end.
* `EncodedModule.tableLines`: both, for any module.
* `pointerTable_of_encode`: both, for the module of a program, with the names in the order of the
  stream.
* `pointerTable_of_encode_twoLines`: a global whose name has a line end, in a document that loads.
-/

set_option autoImplicit false

namespace IrStream

open Assembly

/-! ## Line ends in lines

Only names contribute.  Directives, bytes and counts have no line ends in them. -/

namespace Assembly

/-- Escaping adds no line ends. -/
theorem count_escaped (name : List Char) :
    (name.flatMap escapedChar).count '\n' = name.count '\n' := by
  induction name with
  | nil => rfl
  | cons c name ih =>
    have one : (escapedChar c).count '\n' = [c].count '\n' := by
      rw [escapedChar]
      split
      · next backslash =>
        subst backslash
        decide
      · split
        · next quote =>
          subst quote
          decide
        · rfl
    rw [List.flatMap_cons, List.count_append, one, ih]
    exact List.count_append.symm

/-- A line of the table has the line ends of its name. -/
theorem count_tableLine (word : WordSize) (name : String) :
    (tableLine word name).toList.count '\n' = name.toList.count '\n' := by
  have front : (directive (addressDirective word) "").toList.count '\n' = 0 := by
    cases word <;> decide
  rw [tableLine, toList_directive, List.count_append, front, Nat.zero_add]
  by_cases plain : isPlain name.toList = true
  · rw [toList_symbol_of_plain plain]
  · rw [toList_symbol_of_not_plain plain, List.count_cons_of_ne (by decide), List.count_append,
      count_escaped]
    rfl

theorem length_byteLines (bytes : List UInt8) :
    (byteLines bytes).length = (bytes.length + 15) / 16 := by
  rw [byteLines, List.length_map, length_chunks (by decide) (Nat.le_refl _)]
  rfl

/-- Texts without line ends are as many lines. -/
theorem sum_count_of_not_mem {source : List String} (free : ∀ line ∈ source, '\n' ∉ line.toList) :
    (source.map fun line => line.toList.count '\n' + 1).sum = source.length := by
  have ones : (source.map fun line => line.toList.count '\n' + 1) = source.map fun _ => 1 :=
    List.map_congr_left fun line mem => by rw [List.count_eq_zero.mpr (free line mem)]
  rw [ones]
  simp

end Assembly

namespace EncodedModule

variable (encoded : EncodedModule)

/-- The lines around the table have no line ends. -/
theorem not_mem_of_mem_sourceLines {line : String}
    (mem : line ∈ openLines ++ (byteLines encoded.bytes ++ (closeLines encoded.word
      ++ (labelLine globalsLabel :: countLines encoded.globals.length)))) :
    '\n' ∉ line.toList := by
  have opened : ∀ line ∈ openLines, '\n' ∉ line.toList := by decide
  have closed : ∀ line ∈ closeLines encoded.word, '\n' ∉ line.toList := by
    cases encoded.word <;> decide
  simp only [List.mem_append, List.mem_cons] at mem
  rcases mem with mem | mem | mem | rfl | mem
  · exact opened line mem
  · exact fun inside => (unquoted_of_mem_byteLines mem '\n' inside).1 rfl
  · exact closed line mem
  · decide
  · exact fun inside => (unquoted_of_mem_countLines mem '\n' inside).1 rfl

/-- **The text has a line more** for each line end in a name. -/
theorem length_lines_assembly : (lines encoded.assembly.toList).length
    = 14 + (encoded.bytes.length + 15) / 16 + encoded.globals.length
      + (encoded.globals.map fun name => name.toList.count '\n').sum := by
  have around := sum_count_of_not_mem fun _ => encoded.not_mem_of_mem_sourceLines
  have entries : ((encoded.globals.map (tableLine encoded.word)).map
      fun line => line.toList.count '\n' + 1).sum
        = (encoded.globals.map fun name => name.toList.count '\n').sum
          + encoded.globals.length := by
    simp [List.map_map, Function.comp_def, count_tableLine, List.sum_map_add]
  have opened : openLines.length = 3 := rfl
  have closed : (closeLines encoded.word).length = 6 := rfl
  have count : (countLines encoded.globals.length).length = 4 := rfl
  have total : (lines encoded.assembly.toList).length
      = (encoded.sourceLines.map fun line => line.toList.count '\n' + 1).sum :=
    length_lines_unlines encoded.sourceLines
  rw [total, sourceLines_eq]
  simp only [List.map_append, List.map_cons, List.sum_append, List.sum_cons, List.length_append,
    List.length_cons, opened, closed, count, length_byteLines] at around entries ⊢
  omega

/-- The table is found line by line if and only if no name has a line end. -/
theorem tableOf_lines_iff : tableOf (lines encoded.assembly.toList)
      = encoded.globals.map (fun name => (tableLine encoded.word name).toList) ↔
    ∀ name ∈ encoded.globals, '\n' ∉ name.toList := by
  constructor
  · intro table name mem inside
    have entry : (tableLine encoded.word name).toList ∈ tableOf (lines encoded.assembly.toList) :=
      table ▸ List.mem_map_of_mem mem
    have line : (tableLine encoded.word name).toList ∈ lines encoded.assembly.toList :=
      (List.dropWhile_sublist _).mem
        ((List.drop_sublist 1 _).mem ((List.takeWhile_sublist _).mem entry))
    have none := List.count_eq_zero.mpr (not_mem_of_mem_cut line)
    rw [count_tableLine] at none
    exact List.count_eq_zero.mp none inside
  · intro free
    have each : ∀ line ∈ encoded.sourceLines, '\n' ∉ line.toList := by
      intro line mem
      rw [sourceLines_eq] at mem
      by_cases entry : line ∈ encoded.globals.map (tableLine encoded.word)
      · obtain ⟨name, listed, rfl⟩ := List.mem_map.mp entry
        rw [← List.count_eq_zero, count_tableLine, List.count_eq_zero]
        exact free name listed
      · refine encoded.not_mem_of_mem_sourceLines ?_
        simp only [List.mem_append, List.mem_cons] at mem ⊢
        tauto
    have cut : lines encoded.assembly.toList = encoded.sourceLines.map String.toList :=
      lines_unlines each
    rw [cut, tableOf_sourceLines]

end EncodedModule

/-! ## Encoded programs -/

/-- What the lines of a source say of the table of globals. -/
structure EncodedModule.TableLines (encoded : EncodedModule) : Prop where
  /-- Every line end in a name is one line more. -/
  count : (lines encoded.assembly.toList).length
    = 14 + (encoded.bytes.length + 15) / 16 + encoded.globals.length
      + (encoded.globals.map fun name => name.toList.count '\n').sum
  /-- The lines of the table are those of the globals if each name is on one. -/
  table_iff : tableOf (lines encoded.assembly.toList)
      = encoded.globals.map (fun name => (tableLine encoded.word name).toList) ↔
    ∀ name ∈ encoded.globals, '\n' ∉ name.toList
  /-- There is one line for each global if each name is on one. -/
  count_iff : (lines encoded.assembly.toList).length
      = 14 + (encoded.bytes.length + 15) / 16 + encoded.globals.length ↔
    ∀ name ∈ encoded.globals, '\n' ∉ name.toList

theorem EncodedModule.tableLines (encoded : EncodedModule) : encoded.TableLines where
  count := encoded.length_lines_assembly
  table_iff := encoded.tableOf_lines_iff
  count_iff := by
    rw [encoded.length_lines_assembly, Nat.add_eq_left, List.sum_eq_zero_iff_forall_eq_nat,
      List.forall_mem_map]
    exact forall₂_congr fun _ _ => List.count_eq_zero

theorem Program.word_of_encode {program : Program} {word : WordSize} {encoded : EncodedModule}
    (h : program.encode word = .ok encoded) : encoded.word = word := by
  have run : Encoding.Yields (program.encodeModule word) .initial encoded
      (program.finalTables word) :=
    Prod.ext h rfl
  simp only [encodeModule, Encoding.yields_bind_iff, Encoding.yields_pure_iff] at run
  obtain ⟨_, _, -, _, _, -, _, _, -, rfl, -⟩ := run
  rfl

/-- **The table of globals** has the names of the globals section in order.  Each has a line of its
own, with the directive for an address, as long as no name has a line end; each line end is another
line of the text. -/
theorem pointerTable_of_encode {program : Program} {word : WordSize} {encoded : EncodedModule}
    (h : program.encode word = .ok encoded) :
    ∃ stream, Stream.read? word encoded.bytes = some stream
      ∧ stream.Describes program word (program.finalTables word)
      ∧ encoded.globals = stream.globals.map (·.name) ∧ encoded.word = word
      ∧ encoded.TableLines := by
  obtain ⟨stream, state, run, bytes, globals, same⟩ := encodeStream_of_encode h
  obtain ⟨-, describes, fits⟩ := Program.encodeStream_spec (.initial program) run
  exact ⟨stream, bytes ▸ Stream.read?_toBytes fits, describes.of_sameTables same, globals,
    Program.word_of_encode h, encoded.tableLines⟩

/-- A document with a global whose name is two lines. -/
def Document.twoLines : Document where
  layout := none
  structs := []
  globals := [⟨"a\nb", .text "i32", false, none⟩]
  functions := [{
    name := "f"
    params := []
    ret := none
    vararg := false
    blocks := [⟨none, [
      ⟨none, "store", none, [.text "i32 1", .text "@a\nb"], none, none, none⟩,
      ⟨none, "ret", none, [], none, none, none⟩]⟩] }]

/-- The program that the document stands for. -/
def Program.twoLines : Program where
  layout := .standard
  types := ⟨#[.void, .int 1, .int 8, .int 32, .int 64, .ptr 0, .func [] .void false]⟩
  constants := ⟨#[.int .i32 1, .global ⟨0⟩]⟩
  globals := #[⟨"a\nb", .i32, false, none⟩]
  functions := #[⟨"f", ⟨6⟩, [], [⟨0⟩]⟩]
  blocks := #[⟨⟨0⟩, none, [⟨0⟩, ⟨1⟩]⟩]
  insts := #[⟨.store, .void, [.const ⟨0⟩, .const ⟨1⟩], none, ⟨0⟩⟩, ⟨.ret, .void, [], none, ⟨0⟩⟩]
  args := #[]

/-- The one global takes two lines, so its table has not one line for each. -/
theorem pointerTable_of_encode_twoLines :
    Document.twoLines.toProgram = .ok Program.twoLines
      ∧ ∃ encoded stream, Program.twoLines.encode .eight = .ok encoded
        ∧ Stream.read? .eight encoded.bytes = some stream
        ∧ stream.globals.map (·.name) = ["a\nb"]
        ∧ (lines encoded.assembly.toList).length = 14 + (encoded.bytes.length + 15) / 16 + 2
        ∧ tableOf (lines encoded.assembly.toList)
          ≠ encoded.globals.map fun name => (tableLine encoded.word name).toList := by
  have loaded : Document.twoLines.toProgram = .ok Program.twoLines := by decide +kernel
  have encodes : (Program.twoLines.encode .eight).toOption.any
      (fun encoded => encoded.globals = ["a\nb"]) = true := by
    decide +kernel
  obtain ⟨encoded, outcome, names⟩ := exists_of_any_toOption encodes
  have names : encoded.globals = ["a\nb"] := of_decide_eq_true names
  obtain ⟨stream, read, -, globals, -, table⟩ := pointerTable_of_encode outcome
  refine ⟨loaded, encoded, stream, outcome, read, globals ▸ names, ?_, fun one => ?_⟩
  · rw [table.count, names]
    rfl
  · exact table.table_iff.mp one "a\nb" (names ▸ List.mem_cons_self) (by decide)

end IrStream
