import IrStream.Encode.Inst
import IrStream.Encode.Section
import IrStream.Stream.Bytes

/-!
# Encoding programs

`Program.encode` turns a program into a stream for a word size.  Functions are encoded in program
order, then the sections of what they refer to.  The result is the bytes, the names of the globals
in the order in which the stream counts them, and what was counted on the way.

`Program.encodeLogged` also gives the log, which a program that cannot be encoded has as well.
-/

set_option autoImplicit false

namespace IrStream

/-- A program that is encoded. -/
structure EncodedModule where
  bytes : List UInt8
  /-- Names of the globals by position in the globals section. -/
  globals : List String
  word : WordSize
  stats : EncodeStats
  deriving DecidableEq

namespace Program

variable (program : Program) (word : WordSize)

/-- The record of a function. -/
def encodeFunction (id : FuncId) : Encoding FunctionRecord := do
  let function ← (program.function id : Except Dangling Function)
  let name ← Encoding.unterminated function.name
  let type ← Encoding.sized word (← Encoding.registerType program function.type)
  let count ← Encoding.sized word function.blocks.length
  let before := (← get).stats.instructions
  let blocks ← program.encodeBlocks word (.ofFunction id function) 0 function.blocks
  Encoding.count fun stats => { stats with
    functions := stats.functions + 1
    blocks := stats.blocks + count
    declarations := stats.declarations + (if function.isDeclaration then 1 else 0) }
  Encoding.log (.encodedFunction name count ((← get).stats.instructions - before))
  return ⟨name, type, blocks⟩

/-- The stream of a program. -/
def encodeStream : Encoding Stream := do
  let _ ← Encoding.sized word program.functions.size
  let functions ← program.functionIds.mapM (program.encodeFunction word)
  let constants ← program.encodeConstants word
  let globals ← program.encodeGlobals word
  let types ← program.encodeTypes word
  return ⟨.current, functions, constants, globals, types⟩

/-- Count what the tables hold in the end. -/
def countTables : Encoding EncodeStats := do
  let state ← get
  let stats := { state.stats with
    types := state.types.size
    constants := state.constants.size
    globals := state.globals.size }
  set { state with stats }
  return stats

/-- Encode a program. -/
def encodeModule : Encoding EncodedModule := do
  let stream ← program.encodeStream word
  let bytes := stream.toBytes word
  let stats ← countTables
  Encoding.log <|
    .encodedProgram bytes.length stats.functions stats.types stats.constants stats.globals
  return ⟨bytes, stream.globals.map (·.name), word, stats⟩

/-- The outcome of encoding a program, and what was logged up to it. -/
def encodeLogged : Except EncodeError EncodedModule × List LogEvent :=
  let (outcome, state) := (program.encodeModule word).run.run .initial
  (outcome, state.log.toList)

/-- The outcome of encoding a program. -/
def encode : Except EncodeError EncodedModule :=
  (program.encodeLogged word).1

end Program

end IrStream
