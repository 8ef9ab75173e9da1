import IrStream.Encode.Basic

/-!
# Assembler output

A stream can be linked into an object file.  `EncodedModule.assembly` is the assembler source that
puts it into a section of its own between two global labels, and behind it a table with the
address of every global, in the order in which the stream counts them, and its length.

A name that the assembler would not read as one symbol is written between double quotes.
-/

set_option autoImplicit false

namespace IrStream

/-- Lines, each with its end. -/
def unlines (lines : List String) : String :=
  String.join (lines.map (· ++ "\n"))

namespace Assembly

/-- Section that holds the stream. -/
def streamSection : String := ".aot_ir"

/-- Label of the first byte of the stream. -/
def startLabel : String := "aotir.ir.start"

/-- Label behind the last byte of the stream. -/
def stopLabel : String := "aotir.ir.stop"

/-- Label of the addresses of the globals. -/
def globalsLabel : String := "__aotir_globalvar_ptrs"

/-- Label of the count of globals, in 64 bits. -/
def countLabel : String := "__aotir_globalvar_len"

/-- Bytes on one line. -/
def bytesPerLine : Nat := 16

/-! ## Lines -/

/-- A digit of base sixteen, in lower case. -/
def hexDigit (value : Nat) : Char :=
  if value < 10 then Char.ofNat ('0'.toNat + value) else Char.ofNat ('a'.toNat + (value - 10))

/-- A byte as `0x` and two digits. -/
def byteText (byte : UInt8) : String :=
  "0x" ++ String.ofList [hexDigit (byte.toNat / 16), hexDigit (byte.toNat % 16)]

/-- Texts with commas between them. -/
def joinCommas : List String → String
  | [] => ""
  | [text] => text
  | text :: rest => text ++ "," ++ joinCommas rest

/-- A directive and its argument. -/
def directive (name argument : String) : String :=
  "\t" ++ name ++ "\t" ++ argument

/-- The line that defines a label. -/
def labelLine (label : String) : String :=
  label ++ ":"

/-- Bytes cut into lines, with at most `count` of them. -/
def chunks (length : Nat) : (count : Nat) → List UInt8 → List (List UInt8)
  | 0, _ => []
  | _, [] => []
  | count + 1, bytes => bytes.take length :: chunks length count (bytes.drop length)

/-- The lines of bytes. -/
def byteLines (bytes : List UInt8) : List String :=
  (chunks bytesPerLine bytes.length bytes).map fun chunk =>
    directive ".byte" (joinCommas (chunk.map byteText))

/-! ## Symbols -/

/-- Whether a character needs no quotes. -/
def isSymbolChar (c : Char) : Bool :=
  c.isAlphanum || c == '_' || c == '.' || c == '$'

/-- Whether a name reads as one symbol: it has only symbol characters and begins with none of the
digits. -/
def isPlain (name : List Char) : Bool :=
  match name with
  | [] => false
  | first :: _ => !first.isDigit && name.all isSymbolChar

/-- A character between double quotes. -/
def escapedChar (c : Char) : List Char :=
  if c = '\\' then ['\\', '\\'] else if c = '"' then ['\\', '"'] else [c]

/-- A name as the assembler reads it. -/
def symbol (name : String) : String :=
  if isPlain name.toList then name
  else "\"" ++ String.ofList (name.toList.flatMap escapedChar) ++ "\""

/-! ## The source -/

/-- The directive for an address. -/
def addressDirective : WordSize → String
  | .four => ".long"
  | .eight => ".quad"

/-- The alignment of an address, as a power of two. -/
def addressAlign : WordSize → String
  | .four => "2"
  | .eight => "3"

/-- Lines up to the end of the stream. -/
def streamLines (bytes : List UInt8) : List String :=
  [directive ".section" (streamSection ++ ",\"a\",@progbits"),
    directive ".globl" startLabel,
    labelLine startLabel]
  ++ byteLines bytes
  ++ [directive ".globl" stopLabel, labelLine stopLabel]

/-- Lines of the table of globals. -/
def globalLines (word : WordSize) (globals : List String) : List String :=
  [directive ".section" ".data.rel.ro,\"aw\",@progbits",
    directive ".globl" globalsLabel,
    directive ".p2align" (addressAlign word),
    labelLine globalsLabel]
  ++ globals.map (fun name => directive (addressDirective word) (symbol name))
  ++ [directive ".globl" countLabel,
    directive ".p2align" "3",
    labelLine countLabel,
    directive ".quad" (toString globals.length)]

end Assembly

open Assembly

/-- Assembler source that embeds a stream. -/
def EncodedModule.assembly (encoded : EncodedModule) : String :=
  unlines (streamLines encoded.bytes ++ [""] ++ globalLines encoded.word encoded.globals)

end IrStream
