import IrStream.Report.Assembly

/-!
# The statistics report

One line for each number that encoding counted: its name, a colon, and the number in a column of
its own.
-/

set_option autoImplicit false

namespace IrStream

namespace Statistics

/-- What is reported of a module, in the order of the lines. -/
def rows (encoded : EncodedModule) : List (String × Nat) :=
  [("bytes", encoded.bytes.length),
    ("word size", encoded.word.bytes),
    ("functions", encoded.stats.functions),
    ("declarations", encoded.stats.declarations),
    ("blocks", encoded.stats.blocks),
    ("instructions", encoded.stats.instructions),
    ("skipped", encoded.stats.skippedInstructions),
    ("types", encoded.stats.types),
    ("constants", encoded.stats.constants),
    ("globals", encoded.stats.globals),
    ("unimplemented instructions", encoded.stats.unimplementedInstructions),
    ("unimplemented operands", encoded.stats.unimplementedOperands),
    ("unimplemented constants", encoded.stats.unimplementedConstants),
    ("unimplemented types", encoded.stats.unimplementedTypes)]

/-- A text filled up with spaces to a width. -/
def padded (width : Nat) (text : String) : String :=
  text ++ String.ofList (List.replicate (width - text.length) ' ')

/-- Length of the longest name. -/
def nameWidth (rows : List (String × Nat)) : Nat :=
  (rows.map (·.1.length)).foldl max 0

/-- The lines of rows, with the numbers two spaces behind the longest name. -/
def lines (rows : List (String × Nat)) : List String :=
  rows.map fun row => padded (nameWidth rows + 1) (row.1 ++ ":") ++ "  " ++ toString row.2

end Statistics

/-- The report on an encoded program. -/
def EncodedModule.report (encoded : EncodedModule) : String :=
  unlines (Statistics.lines (Statistics.rows encoded))

end IrStream
